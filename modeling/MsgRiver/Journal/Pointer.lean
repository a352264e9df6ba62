import MsgRiver.Lib.Disk
import MsgRiver.Lib.Text
import MsgRiver.Journal.Members

/-!
# Publishing the active-state pointer

The pointer to the active generation is the file `active-state` of the owner's directory, one
authenticated certificate.  A publication writes the certificate to a temporary file whose name
depends on the transition only, syncs it, renames it over the pointer and syncs the directory.  A
temporary that is already there is used if it is the same certificate byte for byte; any other one
is left alone, and the publication fails.

`publishActiveStatePointer_spec` says what one attempt leaves behind, for every outcome of every
call. From it follows what any number of attempts leave, and when the next one goes through
(`pointer_attempts`).
-/

namespace MsgRiver.Journal

open Bytes Result Ascii Text Sha256 Process Disk

/-! ### The code -/

/-- Whether a pointer may be there already. -/
inductive ActiveStatePointerPublicationMode
  | requireAbsent
  | replaceExisting
  deriving DecidableEq, Repr

/-- Why a pointer was not published. -/
inductive ActiveStatePointerPublisherError
  | missingActiveStatePointerPublisher
  | invalidActiveStatePointerPublisher
  deriving DecidableEq, Repr

open ActiveStatePointerPublisherError (invalidActiveStatePointerPublisher)

/-- The name of the pointer. -/
def activeStateName : String := "active-state"

/-- The label of the temporary's name. -/
def temporaryNameDomain : List UInt8 := utf8Bytes "msgriver/active-state-pointer-temp/v1"

/-- `{:x}` of a digest. -/
def lowerHex (bytes : List UInt8) : List Char :=
  bytes.flatMap fun b => [lowerHexDigit (b.toNat / 16), lowerHexDigit (b.toNat % 16)]

/-- The digest that names the temporary. -/
def temporaryDigest (pointer : ActiveStatePointer) : ByteVec 32 :=
  sha256 (temporaryNameDomain ++ utf8Bytes pointer.transitionId)

/-- The name of the temporary, which depends on the transition alone. -/
def temporaryBasename (pointer : ActiveStatePointer) : String :=
  "active-state.tmp." ++ String.ofList (lowerHex (temporaryDigest pointer).toList)

/-- Work in the operational directory. -/
abbrev PublisherProcess := Process Directory ActiveStatePointerPublisherError

/-- A regular file of this user, closed to others, under one name and of the expected size. -/
def isOwnerOnlyFile (metadata : File) (expectedSize : Option ℕ) : Bool :=
  metadata.regular && metadata.mode == 0o600 && metadata.owned && metadata.links == 1
    && expectedSize.all (metadata.bytes.length == ·)

/-- A file of the owner, looked at under its name and again behind its descriptor. -/
def openOwnerOnly (name : String) (expectedSize : Option ℕ) : PublisherProcess ℕ := do
  let entry ← stat invalidActiveStatePointerPublisher name
  let before ← lift (orError invalidActiveStatePointerPublisher entry)
  lift (reject (!isOwnerOnlyFile before.2 expectedSize) invalidActiveStatePointerPublisher)
  let opened ← openFile invalidActiveStatePointerPublisher name
  let file ← lift (orError invalidActiveStatePointerPublisher opened)
  let after ← fstat invalidActiveStatePointerPublisher file
  lift (reject (!isOwnerOnlyFile after expectedSize || before.1 != file)
    invalidActiveStatePointerPublisher)
  return file

/-- A temporary that is there already has to hold the certificate. -/
def verifyExactTemporary (temporary : String) (wire : List UInt8) : PublisherProcess ℕ := do
  let file ← openOwnerOnly temporary (some wire.length)
  let actual ← readExact invalidActiveStatePointerPublisher file wire.length
  lift (reject (actual != wire) invalidActiveStatePointerPublisher)
  return file

/-- The pointer that is replaced has to be a file of this user. -/
def verifyReplaceableDestination : PublisherProcess Unit := do
  let _ ← openOwnerOnly activeStateName none

/-- What follows the exclusive create of the temporary. -/
def writeOrVerify (temporary : String) (wire : List UInt8) : Option ℕ → PublisherProcess ℕ
  | some file => do
    writeAll invalidActiveStatePointerPublisher file wire
    return file
  | none => verifyExactTemporary temporary wire

/-- The temporary is created, or taken over from an earlier attempt. -/
def openOrVerifyTemporary (temporary : String) (wire : List UInt8) : PublisherProcess ℕ := do
  let created ← createNew invalidActiveStatePointerPublisher temporary
  writeOrVerify temporary wire created

/-- The rename of each mode. -/
def selectTemporary (temporary : String) : ActiveStatePointerPublicationMode → PublisherProcess Unit
  | .requireAbsent =>
    renameNoReplace invalidActiveStatePointerPublisher temporary activeStateName
  | .replaceExisting => do
    verifyReplaceableDestination
    rename invalidActiveStatePointerPublisher temporary activeStateName

/-- The calls of a publication once the certificate is encoded. -/
def publishWire (temporary : String) (wire : List UInt8)
    (mode : ActiveStatePointerPublicationMode) :
    PublisherProcess Unit := do
  let file ← openOrVerifyTemporary temporary wire
  fsync invalidActiveStatePointerPublisher file
  selectTemporary temporary mode
  fsyncDirectory invalidActiveStatePointerPublisher

/-- `publish_active_state_pointer`. -/
def publishActiveStatePointer (key : JournalIntegrityKey) (pointer : ActiveStatePointer)
    (mode : ActiveStatePointerPublicationMode) : PublisherProcess Unit := do
  -- `fstat` of the descriptor; a `Directory` is one
  ask invalidActiveStatePointerPublisher fun _ => ()
  let wire ← (lift (encodeActiveStatePointer key pointer)).mapError
    fun _ => invalidActiveStatePointerPublisher
  publishWire (temporaryBasename pointer) wire mode

/-! ### What an attempt leaves -/

/-- The same file, which may have been synced in between. -/
def Retains (before after : File) : Prop :=
  after = before ∨ after = { before with synced := true }

/-- The pointer and the files from before `start` are as they were. -/
structure Spared (start directory : Directory) : Prop where
  entry : directory.entries activeStateName = start.entries activeStateName
  settled : directory.settled = start.settled
  files : ∀ file < start.fresh, Retains (start.files file) (directory.files file)
  fresh : start.fresh ≤ directory.fresh
  wellFormed : directory.WellFormed

/-- The temporary points at this file. -/
structure Staged (start : Directory) (name : String) (file : ℕ) (content : File)
    (directory : Directory) : Prop extends Spared start directory where
  entryStaged : directory.entries name = some file
  content : directory.files file = content

/-- The pointer is the new certificate, which is synced, and the temporary is gone. -/
structure Switched (start : Directory) (name : String) (wire : List UInt8) (directory : Directory) :
    Prop where
  entry : ∃ file, directory.entries activeStateName = some file ∧
    directory.files file = .ofOwner wire true
  temporary : directory.entries name = none
  settled : directory.settled = start.settled ∨ directory.settled = directory.entries
  files : ∀ file < start.fresh, Retains (start.files file) (directory.files file)
  wellFormed : directory.WellFormed

/-- Nothing has happened, or the temporary holds a part of the certificate. -/
def Unfinished (start : Directory) (name : String) (wire : List UInt8) (directory : Directory) :
    Prop :=
  directory = start ∨
    ∃ file n synced, Staged start name file (.ofOwner (wire.take n) synced) directory

section Attempt

variable {start directory : Directory} {name : String} {file n : ℕ} {content : File}
  {wire : List UInt8} {synced : Bool}

theorem Retains.refl (file : File) : Retains file file := .inl rfl

theorem Retains.trans {before middle after : File} (h : Retains before middle)
    (h' : Retains middle after) : Retains before after := by
  rcases h with rfl | rfl
  · exact h'
  · rcases h' with rfl | rfl
    · exact .inr rfl
    · exact .inr rfl

theorem Retains.bytes {before after : File} (h : Retains before after) :
    after.bytes = before.bytes := by
  rcases h with rfl | rfl
  · rfl
  · rfl

theorem Retains.isOwnerOnlyFile {before after : File} (h : Retains before after) (size : Option ℕ) :
    isOwnerOnlyFile after size = isOwnerOnlyFile before size := by
  rcases h with rfl | rfl
  · rfl
  · rfl

theorem Retains.keeps_synced {before after : File} (h : Retains before after)
    (hsynced : before.synced = true) :
    after.synced = true := by
  rcases h with rfl | rfl
  · exact hsynced
  · rfl

theorem activeStateName_length : activeStateName.toList.length = 12 := by decide +kernel

theorem temporary_label_length : "active-state.tmp.".toList.length = 17 := by decide +kernel

theorem temporaryBasename_eq (pointer : ActiveStatePointer) : temporaryBasename pointer =
    "active-state.tmp." ++ String.ofList (lowerHex (temporaryDigest pointer).toList) := rfl

theorem temporaryBasename_ne (pointer : ActiveStatePointer) :
    temporaryBasename pointer ≠ activeStateName := by
  intro h
  have hlength : (temporaryBasename pointer).toList.length = 12 := by
    rw [h, activeStateName_length]
  rw [temporaryBasename_eq, String.toList_append, List.length_append, temporary_label_length]
    at hlength
  omega

theorem spared_refl (h : start.WellFormed) : Spared start start :=
  ⟨rfl, rfl, fun file _ => Retains.refl (start.files file), Nat.le_refl _, h⟩

theorem staged_create (h : start.WellFormed) (hname : name ≠ activeStateName) :
    Staged start name start.fresh (.ofOwner [] false) (start.create name) := by
  refine ⟨⟨?_, rfl, fun file hfile => .inl ?_, Nat.le_succ _, h.create name⟩,
    start.create_entries_self name, start.create_files_self name⟩
  · exact Directory.setEntry_entries_of_ne _ hname.symm _
  · exact Directory.setFile_files_of_ne _ (Nat.ne_of_lt hfile) _

/-- The staged file takes another content; a file from before `start` can only be synced. -/
theorem Staged.setFile (h : Staged start name file content directory) {next : File}
    (hnext : start.fresh ≤ file ∨ Retains content next) :
    Staged start name file next (directory.setFile file next) := by
  refine ⟨⟨h.entry, h.settled, fun other hother => ?_, h.fresh, h.wellFormed⟩, h.entryStaged,
    directory.setFile_files_self file next⟩
  by_cases hsame : other = file
  · subst hsame
    have hretains : Retains content next := hnext.resolve_left (Nat.not_le.2 hother)
    rw [directory.setFile_files_self other next]
    refine (h.files other hother).trans ?_
    rwa [h.content]
  · rw [directory.setFile_files_of_ne hsame next]
    exact h.files other hother

theorem Staged.append {written : List UInt8}
    (h : Staged start name file (.ofOwner written false) directory) (hnew : start.fresh ≤ file)
    (bytes : List UInt8) :
    Staged start name file (.ofOwner (written ++ bytes) false) (directory.append file bytes) := by
  have hnext : Staged start name file (.ofOwner (written ++ bytes) false) (directory.setFile file _) :=
    h.setFile (.inl hnew)
  rw [Directory.append, h.content]
  exact hnext

theorem Staged.syncFile (h : Staged start name file (.ofOwner wire synced) directory) :
    Staged start name file (.ofOwner wire true) (directory.syncFile file) := by
  have hnext : Staged start name file (.ofOwner wire true) (directory.setFile file _) :=
    h.setFile (.inr (.inr rfl))
  rw [Directory.syncFile, h.content]
  exact hnext

/-- The rename puts the staged file in the pointer's place. -/
theorem Staged.rename (h : Staged start name file (.ofOwner wire true) directory)
    (hname : name ≠ activeStateName) :
    Switched start name wire (directory.rename name activeStateName) :=
  ⟨⟨file, (directory.rename_entries_target hname).trans h.entryStaged, h.content⟩,
    Directory.setEntry_entries_self .., .inl h.settled, h.files,
    h.wellFormed.rename name activeStateName⟩

theorem Switched.sync (h : Switched start name wire directory) :
    Switched start name wire directory.sync :=
  ⟨h.entry, h.temporary, .inr rfl, h.files, h.wellFormed.sync⟩

theorem Staged.unfinished (h : Staged start name file (.ofOwner wire synced) directory) :
    Unfinished start name wire directory := by
  refine .inr ⟨file, wire.length, synced, ?_⟩
  rwa [List.take_length]

/-- A look at a file changes nothing, and finds a file of the owner. -/
theorem triple_openOwnerOnly (size : Option ℕ) :
    Triple (· = start) (openOwnerOnly name size) fun answer directory => directory = start ∧
      match answer with
      | .ok file => start.entries name = some file ∧ isOwnerOnlyFile (start.files file) size = true
      | .error _ => True
      | .stopped => True := by
  refine triple_ask_bind ⟨rfl, trivial⟩ ⟨rfl, trivial⟩ (.lift_bind (fun _ _ => ⟨rfl, trivial⟩)
    fun before _ => .lift_bind (fun _ _ => ⟨rfl, trivial⟩) fun _ _ => ?_)
  refine triple_ask_bind ⟨rfl, trivial⟩ ⟨rfl, trivial⟩ (.lift_bind (fun _ _ => ⟨rfl, trivial⟩)
    fun file hfile => ?_)
  -- the attributes that count are those of the opened file
  refine triple_ask_bind ⟨rfl, trivial⟩ ⟨rfl, trivial⟩ (.lift_bind (fun _ _ => ⟨rfl, trivial⟩)
    fun _ hfits => .pure fun _ hstart => ?_)
  rw [reject_eq_ok, Bool.or_eq_false_iff, Bool.not_eq_false'] at hfits
  exact ⟨hstart, orError_eq_ok.1 hfile, hfits.1⟩

/-- The temporary that is there holds these bytes in a file of the owner. -/
def Exact (name : String) (wire : List UInt8) (directory : Directory) (file : ℕ) : Prop :=
  directory.entries name = some file ∧
    isOwnerOnlyFile (directory.files file) (some wire.length) = true ∧
    (directory.files file).bytes = wire

theorem triple_verifyExactTemporary :
    Triple (· = start) (verifyExactTemporary name wire) fun answer directory => directory = start ∧
      match answer with
      | .ok file => Exact name wire start file
      | .error _ => True
      | .stopped => True := by
  refine .bind_start (fun file => start.entries name = some file ∧
    isOwnerOnlyFile (start.files file) (some wire.length) = true) ?_ ?_
  · refine (triple_openOwnerOnly (some wire.length)).mono (fun _ h => h) fun answer _ h => ?_
    cases answer with
    | ok => exact h
    | error => exact ⟨h.1, rfl, trivial⟩
    | stopped => exact ⟨h.1, rfl, trivial⟩
  rintro file ⟨hentry, hfits⟩
  refine .bind_start (· = (start.files file).bytes) ?_ ?_
  · rintro _ outcomes rfl
    obtain ⟨hsame, hread⟩ := triple_readExact _ outcomes rfl
    rw [hsame]
    generalize (readExact _ file wire.length _ outcomes).1 = answer at hread ⊢
    cases answer with
    | ok => exact ⟨rfl, hread.1⟩
    | error => exact ⟨rfl, rfl, trivial⟩
    | stopped => exact ⟨rfl, rfl, trivial⟩
  rintro actual rfl
  refine .lift_bind (fun _ _ => ⟨rfl, trivial⟩) fun _ hsame => .pure fun _ hstart => ?_
  rw [reject_eq_ok, bne_eq_false_iff_eq] at hsame
  exact ⟨hstart, hentry, hfits, hsame⟩

/-- A file of the owner with the bytes is one that this user writes. -/
theorem Exact.staged (h : Exact name wire start file) (hstart : start.WellFormed) :
    ∃ synced, Staged start name file (.ofOwner wire synced) start := by
  obtain ⟨hentry, hfits, hbytes⟩ := h
  refine ⟨(start.files file).synced, spared_refl hstart, hentry, ?_⟩
  simp only [isOwnerOnlyFile, Bool.and_eq_true, beq_iff_eq] at hfits
  obtain ⟨⟨⟨⟨hregular, hmode⟩, howned⟩, hlinks⟩, -⟩ := hfits
  generalize start.files file = content at *
  obtain ⟨bytes, synced, regular, mode, owned, links⟩ := content
  simp only at *
  subst hbytes hregular hmode howned hlinks
  rfl

/-- A step that answers a value or leaves things unfinished. -/
def Stages (start : Directory) (name : String) (wire : List UInt8) :
    Answer ActiveStatePointerPublisherError ℕ → Directory → Prop
  | .ok file, directory => ∃ synced, Staged start name file (.ofOwner wire synced) directory
  | .error _, directory => Unfinished start name wire directory
  | .stopped, directory => Unfinished start name wire directory

/-- The bytes go to the new temporary one write after the other. -/
theorem triple_writeNew (file : ℕ) (hnew : start.fresh ≤ file) :
    Triple (Staged start name file (.ofOwner [] false)) (writeOrVerify name wire (some file))
      (Stages start name wire) := by
  have hpart : ∀ before rest directory, before ++ rest = wire →
      Staged start name file (.ofOwner before false) directory →
      Unfinished start name wire directory := by
    rintro before rest directory rfl hstaged
    refine .inr ⟨file, before.length, false, ?_⟩
    rwa [List.take_left]
  refine .bind (fun _ => Staged start name file (.ofOwner wire false)) ?_ fun _ =>
    .pure fun _ h => ⟨false, h⟩
  refine (triple_writeAll (fun rest directory => ∃ before, before ++ rest = wire ∧
    Staged start name file (.ofOwner before false) directory) ?_ ?_ ?_ ?_ wire).mono ?_
    fun _ _ h => h
  · rintro rest directory ⟨before, hwire, hstaged⟩
    exact hpart before rest directory hwire hstaged
  · rintro rest directory ⟨before, hwire, hstaged⟩
    exact hpart before rest directory hwire hstaged
  · rintro rest count directory ⟨before, hwire, hstaged⟩
    refine ⟨before ++ rest.take count, ?_, hstaged.append hnew _⟩
    rw [List.append_assoc, List.take_append_drop, hwire]
  · rintro directory ⟨before, hwire, hstaged⟩
    rw [List.append_nil] at hwire
    rwa [hwire] at hstaged
  · exact fun directory hstaged => ⟨[], rfl, hstaged⟩

theorem triple_openOrVerifyTemporary (hstart : start.WellFormed) (hname : name ≠ activeStateName) :
    Triple (· = start) (openOrVerifyTemporary name wire) (Stages start name wire) := by
  refine .bind (fun created directory => match created with
    | some file => start.fresh ≤ file ∧ Staged start name file (.ofOwner [] false) directory
    | none => directory = start) (triple_createNew ?_ ?_ ?_ ?_) fun created => ?_
  · exact fun _ h => .inl h
  · exact fun _ h => .inl h
  · exact fun _ _ h _ => h
  · rintro _ rfl -
    exact ⟨Nat.le_refl _, staged_create hstart hname⟩
  cases created with
  | some file =>
    rintro directory outcomes ⟨hnew, hstaged⟩
    exact triple_writeNew file hnew directory outcomes hstaged
  | none =>
    refine .of_start ?_
    rintro _ rfl
    refine triple_verifyExactTemporary.mono (fun _ h => h) fun answer _ h => ?_
    cases answer with
    | ok file =>
      obtain ⟨rfl, hexact⟩ := h
      exact hexact.staged hstart
    | error => exact .inl h.1
    | stopped => exact .inl h.1

/-- How an attempt ends. -/
def AttemptAnswer (start : Directory) (name : String) (wire : List UInt8) :
    Answer ActiveStatePointerPublisherError Unit → Directory → Prop
  | .ok _, directory => Switched start name wire directory ∧ directory.settled = directory.entries
  | .error _, directory =>
    Unfinished start name wire directory ∨ Switched start name wire directory
  | .stopped, directory =>
    Unfinished start name wire directory ∨ Switched start name wire directory

theorem triple_selectTemporary (hname : name ≠ activeStateName)
    (mode : ActiveStatePointerPublicationMode) :
    Triple (Staged start name file (.ofOwner wire true)) (selectTemporary name mode) fun
      | .ok _ => Switched start name wire
      | .error _ => Unfinished start name wire
      | .stopped => Unfinished start name wire := by
  cases mode with
  | requireAbsent =>
    refine triple_renameNoReplace ?_ ?_ ?_
    · exact fun _ h => h.unfinished
    · exact fun _ h => h.unfinished
    · exact fun _ h _ => h.rename hname
  | replaceExisting =>
    refine .bind (fun _ => Staged start name file (.ofOwner wire true)) ?_ fun _ =>
      triple_change ?_ ?_ ?_
    · refine .bind (fun _ => Staged start name file (.ofOwner wire true)) ?_ fun _ =>
        .pure fun _ h => h
      refine .of_start fun current hcurrent =>
        (triple_openOwnerOnly none).mono (fun _ h => h) fun answer _ h => ?_
      cases answer with
      | ok => exact h.1 ▸ hcurrent
      | error => exact h.1 ▸ hcurrent.unfinished
      | stopped => exact h.1 ▸ hcurrent.unfinished
    · exact fun _ h => h.unfinished
    · exact fun _ h => h.unfinished
    · exact fun _ h => h.rename hname

theorem triple_publishWire (hstart : start.WellFormed) (hname : name ≠ activeStateName)
    (mode : ActiveStatePointerPublicationMode) :
    Triple (· = start) (publishWire name wire mode) (AttemptAnswer start name wire) := by
  refine .bind (fun file directory =>
    ∃ synced, Staged start name file (.ofOwner wire synced) directory) ?_ fun file => ?_
  · refine (triple_openOrVerifyTemporary hstart hname).mono (fun _ h => h) fun answer _ h => ?_
    cases answer with
    | ok => exact h
    | error => exact .inl h
    | stopped => exact .inl h
  refine .bind (fun _ => Staged start name file (.ofOwner wire true)) (triple_change ?_ ?_ ?_)
    fun _ => ?_
  · exact fun _ ⟨_, h⟩ => .inl h.unfinished
  · exact fun _ ⟨_, h⟩ => .inl h.unfinished
  · exact fun _ ⟨_, h⟩ => h.syncFile
  refine .bind (fun _ => Switched start name wire) ?_ fun _ => triple_change ?_ ?_ ?_
  · refine (triple_selectTemporary hname mode).mono (fun _ h => h) fun answer _ h => ?_
    cases answer with
    | ok => exact h
    | error => exact .inl h
    | stopped => exact .inl h
  · exact fun _ h => .inr h
  · exact fun _ h => .inr h
  · exact fun _ h => ⟨h.sync, rfl⟩

/-- **What an attempt leaves behind**, whatever its calls answer and wherever it stops. -/
theorem publishActiveStatePointer_spec {key : JournalIntegrityKey} {pointer : ActiveStatePointer}
    (hstart : start.WellFormed) (hencode : encodeActiveStatePointer key pointer = .ok wire)
    (mode : ActiveStatePointerPublicationMode) :
    Triple (· = start) (publishActiveStatePointer key pointer mode)
      (AttemptAnswer start (temporaryBasename pointer) wire) := by
  refine triple_ask_bind (.inl (.inl rfl)) (.inl (.inl rfl))
    (.bind_start (· = wire) (.mapError (.lift ?_ ?_)) ?_)
  · exact fun bytes hbytes _ h => ⟨h, Except.ok.inj (hbytes.symm.trans hencode)⟩
  · intro e herror
    rw [hencode] at herror
    cases herror
  · rintro bytes rfl
    exact triple_publishWire hstart (temporaryBasename_ne pointer) mode

/-! ### The next attempt -/

/-- The temporary is not there, or it is the certificate. -/
def Usable (name : String) (wire : List UInt8) (directory : Directory) : Prop :=
  ∀ file, directory.entries name = some file → Exact name wire directory file

/-- The pointer shows these bytes in a file of the owner. -/
def Shows (directory : Directory) (bytes : List UInt8) : Prop :=
  ∃ file, directory.entries activeStateName = some file ∧
    isOwnerOnlyFile (directory.files file) none = true ∧ (directory.files file).bytes = bytes

theorem stat_eq (hentry : start.entries name = some file) :
    orError invalidActiveStatePointerPublisher
        ((start.entries name).map fun file => (file, start.files file)) =
      .ok (file, start.files file) := by
  rw [hentry]
  rfl

theorem answers_openOwnerOnly {size : Option ℕ} (hentry : start.entries name = some file)
    (hfits : isOwnerOnlyFile (start.files file) size = true) :
    Answers (openOwnerOnly name size) start 3 file := by
  have hbefore : reject (!isOwnerOnlyFile (start.files file) size)
      invalidActiveStatePointerPublisher = .ok () := by
    rw [reject_eq_ok, hfits]
    rfl
  have hafter : reject (!isOwnerOnlyFile (start.files file) size || file != file)
      invalidActiveStatePointerPublisher = .ok () := by
    rw [reject_eq_ok, hfits, bne_self_eq_false]
    rfl
  have hanswers : Answers (openOwnerOnly name size) start
      (1 + (0 + (0 + (1 + (0 + (1 + (0 + 0))))))) file :=
    (answers_ask _ start).bind ((answers_lift (stat_eq hentry)).bind
      ((answers_lift hbefore).bind ((answers_ask _ start).bind
        ((answers_lift (orError_eq_ok.2 hentry)).bind ((answers_ask _ start).bind
          ((answers_lift hafter).bind (answers_pure file)))))))
  exact hanswers

theorem refuses_openOwnerOnly {size : Option ℕ} (hentry : start.entries name = some file)
    (hfits : isOwnerOnlyFile (start.files file) size = false) :
    ∃ calls, Refuses (openOwnerOnly name size) start calls invalidActiveStatePointerPublisher := by
  have hbefore : reject (!isOwnerOnlyFile (start.files file) size)
      invalidActiveStatePointerPublisher = .error invalidActiveStatePointerPublisher := by
    rw [hfits]
    rfl
  exact ⟨_, (answers_ask _ start).refuses ((answers_lift (stat_eq hentry)).refuses
    ((refuses_lift hbefore).bind _))⟩

theorem answers_verifyExactTemporary (h : Exact name wire start file) :
    ∃ calls, Answers (verifyExactTemporary name wire) start calls file := by
  obtain ⟨hentry, hfits, hbytes⟩ := h
  have hread : Answers (readExact invalidActiveStatePointerPublisher file wire.length) start
      (wire.length + 1 + (1 + 0)) (start.files file).bytes :=
    answers_readExact (congrArg List.length hbytes)
  have hsame : reject ((start.files file).bytes != wire) invalidActiveStatePointerPublisher =
      .ok () := by
    rw [reject_eq_ok, bne_eq_false_iff_eq, hbytes]
  exact ⟨_, (answers_openOwnerOnly hentry hfits).bind (hread.bind ((answers_lift hsame).bind
    (answers_pure file)))⟩

/-- A temporary that differs is refused. -/
theorem refuses_verifyExactTemporary (hentry : start.entries name = some file)
    (hdiffers : ¬ Exact name wire start file) :
    ∃ calls, Refuses (verifyExactTemporary name wire) start calls
      invalidActiveStatePointerPublisher := by
  cases hfits : isOwnerOnlyFile (start.files file) (some wire.length) with
  | false =>
    obtain ⟨calls, hrefuses⟩ := refuses_openOwnerOnly hentry hfits
    exact ⟨calls, hrefuses.bind _⟩
  | true =>
    have hlength : (start.files file).bytes.length = wire.length := by
      rw [isOwnerOnlyFile, Bool.and_eq_true, Option.all_some, beq_iff_eq] at hfits
      exact hfits.2
    have hother : reject ((start.files file).bytes != wire) invalidActiveStatePointerPublisher =
        .error invalidActiveStatePointerPublisher :=
      if_pos (bne_iff_ne.2 fun hbytes => hdiffers ⟨hentry, hfits, hbytes⟩)
    exact ⟨_, (answers_openOwnerOnly hentry hfits).refuses ((answers_readExact hlength).refuses
      ((refuses_lift hother).bind _))⟩

theorem succeeds_writeNew (file : ℕ) (hnew : start.fresh ≤ file) :
    Succeeds (Staged start name file (.ofOwner [] false)) (writeOrVerify name wire (some file))
      (wire.length + 1 + 0) fun file directory =>
        ∃ synced, Staged start name file (.ofOwner wire synced) directory := by
  refine .bind (fun _ => Staged start name file (.ofOwner wire false)) ?_ fun _ =>
    .pure fun _ h => ⟨false, h⟩
  refine (succeeds_writeAll (fun rest directory => ∃ before, before ++ rest = wire ∧
    Staged start name file (.ofOwner before false) directory) ?_ ?_ wire).mono
    (fun _ hstaged => ⟨[], rfl, hstaged⟩) fun _ _ h => h
  · rintro rest count directory ⟨before, hwire, hstaged⟩
    refine ⟨before ++ rest.take count, ?_, hstaged.append hnew _⟩
    rw [List.append_assoc, List.take_append_drop, hwire]
  · rintro directory ⟨before, hwire, hstaged⟩
    rw [List.append_nil] at hwire
    rwa [hwire] at hstaged

theorem succeeds_openOrVerifyTemporary (hstart : start.WellFormed) (hname : name ≠ activeStateName)
    (husable : Usable name wire start) :
    ∃ calls, Succeeds (· = start) (openOrVerifyTemporary name wire) calls fun file directory =>
      ∃ synced, Staged start name file (.ofOwner wire synced) directory := by
  cases hentry : start.entries name with
  | none =>
    refine ⟨1 + (wire.length + 1 + 0), .bind (fun created directory => created = some start.fresh ∧
      Staged start name start.fresh (.ofOwner [] false) directory) (succeeds_createNew ?_)
      fun created => ?_⟩
    · rintro _ rfl
      exact ⟨hentry, rfl, staged_create hstart hname⟩
    · rintro directory counts ⟨rfl, hstaged⟩ hlength
      exact succeeds_writeNew start.fresh (Nat.le_refl _) directory counts hstaged hlength
  | some file =>
    have hexact := husable file hentry
    obtain ⟨synced, hstaged⟩ := hexact.staged hstart
    obtain ⟨calls, hverify⟩ := answers_verifyExactTemporary hexact
    have hanswers : Answers (openOrVerifyTemporary name wire) start (1 + calls) file :=
      Answers.bind (f := writeOrVerify name wire) (answers_createNew hentry) hverify
    refine ⟨_, hanswers.mono (fun _ h => h) ?_⟩
    rintro _ _ ⟨rfl, rfl⟩
    exact ⟨synced, hstaged⟩

theorem Spared.shows {bytes : List UInt8} (h : Spared start directory) (hstart : start.WellFormed)
    (hshows : Shows start bytes) : Shows directory bytes := by
  obtain ⟨file, hentry, hfits, hbytes⟩ := hshows
  have hretains := h.files file (hstart _ _ (.inl hentry))
  exact ⟨file, h.entry.trans hentry, (hretains.isOwnerOnlyFile none).trans hfits,
    hretains.bytes.trans hbytes⟩

theorem succeeds_selectTemporary {bytes : List UInt8} (hstart : start.WellFormed)
    (hname : name ≠ activeStateName) (hshows : Shows start bytes) :
    Succeeds (Staged start name file (.ofOwner wire true)) (selectTemporary name .replaceExisting)
      (3 + 0 + 1) fun _ => Switched start name wire := by
  have hverify : Succeeds (Staged start name file (.ofOwner wire true)) verifyReplaceableDestination
      (3 + 0) fun _ => Staged start name file (.ofOwner wire true) := by
    intro directory counts hstaged hlength
    obtain ⟨destination, hentry, hfits, -⟩ := hstaged.shows hstart hshows
    have hanswers : Answers verifyReplaceableDestination directory (3 + 0) () :=
      (answers_openOwnerOnly hentry hfits).bind (answers_pure ())
    obtain ⟨a, _, rest, hrest, hrun, -, rfl⟩ := hanswers directory counts rfl hlength
    exact ⟨a, _, rest, hrest, hrun, hstaged⟩
  exact .bind _ hverify fun _ => succeeds_change fun _ h => h.rename hname

theorem succeeds_publishWire {bytes : List UInt8} (hstart : start.WellFormed)
    (hname : name ≠ activeStateName) (hshows : Shows start bytes)
    (husable : Usable name wire start) :
    ∃ calls, Succeeds (· = start) (publishWire name wire .replaceExisting) calls
      fun _ => Switched start name wire := by
  obtain ⟨calls, hopen⟩ := succeeds_openOrVerifyTemporary hstart hname husable
  refine ⟨_, .bind _ hopen fun file => .bind (fun _ => Staged start name file (.ofOwner wire true))
    (succeeds_change ?_) fun _ => .bind _ (succeeds_selectTemporary hstart hname hshows) fun _ =>
    succeeds_change fun _ h => h.sync⟩
  exact fun directory ⟨_, h⟩ => h.syncFile

theorem succeeds_publishActiveStatePointer {key : JournalIntegrityKey}
    {pointer : ActiveStatePointer} {bytes : List UInt8} (hstart : start.WellFormed)
    (hencode : encodeActiveStatePointer key pointer = .ok wire) (hshows : Shows start bytes)
    (husable : Usable (temporaryBasename pointer) wire start) :
    ∃ calls, Succeeds (· = start) (publishActiveStatePointer key pointer .replaceExisting) calls
      fun _ => Switched start (temporaryBasename pointer) wire := by
  obtain ⟨calls, hpublish⟩ :=
    succeeds_publishWire hstart (temporaryBasename_ne pointer) hshows husable
  have hwire : Answers ((lift (encodeActiveStatePointer key pointer)).mapError
      fun _ => invalidActiveStatePointerPublisher) start 0 wire :=
    Succeeds.mapError (answers_lift hencode) _
  exact ⟨_, (answers_ask _ start).bind (hwire.bind hpublish)⟩

/-- An attempt that finds another temporary changes nothing and does not succeed. -/
theorem triple_publish_unusable {key : JournalIntegrityKey} {pointer : ActiveStatePointer}
    (hencode : encodeActiveStatePointer key pointer = .ok wire)
    (hentry : start.entries (temporaryBasename pointer) = some file)
    (hdiffers : ¬ Exact (temporaryBasename pointer) wire start file)
    (mode : ActiveStatePointerPublicationMode) :
    Triple (· = start) (publishActiveStatePointer key pointer mode) fun answer directory =>
      answer ≠ .ok () ∧ directory = start := by
  refine triple_ask_bind ⟨nofun, rfl⟩ ⟨nofun, rfl⟩
    (.bind_start (· = wire) (.mapError (.lift ?_ ?_)) ?_)
  · exact fun bytes hbytes _ h => ⟨h, Except.ok.inj (hbytes.symm.trans hencode)⟩
  · exact fun _ _ _ h => ⟨h, nofun, rfl⟩
  rintro bytes rfl
  -- the temporary is there, so it is verified, and the verification does not succeed
  refine .bind_start (fun _ => False) (.bind_start (· = none) (triple_createNew ?_ ?_ ?_ ?_) ?_)
    fun _ h => h.elim
  · exact fun _ h => ⟨h, rfl, nofun, rfl⟩
  · exact fun _ h => ⟨h, rfl, nofun, rfl⟩
  · exact fun _ _ h _ => ⟨h, rfl⟩
  · rintro _ rfl hnone
    rw [hentry] at hnone
    cases hnone
  · rintro _ rfl
    refine triple_verifyExactTemporary.mono (fun _ h => h) fun answer _ h => ⟨h.1, ?_⟩
    cases answer with
    | ok other =>
      obtain ⟨-, hexact⟩ := h
      obtain rfl := Option.some.inj (hexact.1.symm.trans hentry)
      exact hdiffers hexact
    | error => exact ⟨nofun, rfl⟩
    | stopped => exact ⟨nofun, rfl⟩

theorem refuses_publish_unusable {key : JournalIntegrityKey} {pointer : ActiveStatePointer}
    (hencode : encodeActiveStatePointer key pointer = .ok wire)
    (hentry : start.entries (temporaryBasename pointer) = some file)
    (hdiffers : ¬ Exact (temporaryBasename pointer) wire start file)
    (mode : ActiveStatePointerPublicationMode) :
    ∃ calls, Refuses (publishActiveStatePointer key pointer mode) start calls
      invalidActiveStatePointerPublisher := by
  obtain ⟨calls, hverify⟩ := refuses_verifyExactTemporary hentry hdiffers
  have hwire : Answers ((lift (encodeActiveStatePointer key pointer)).mapError
      fun _ => invalidActiveStatePointerPublisher) start 0 wire :=
    Succeeds.mapError (answers_lift hencode) _
  have hopen : Refuses (openOrVerifyTemporary (temporaryBasename pointer) wire) start (1 + calls)
      invalidActiveStatePointerPublisher :=
    Answers.refuses (f := writeOrVerify (temporaryBasename pointer) wire) (answers_createNew hentry)
      hverify
  exact ⟨_, (answers_ask _ start).refuses (hwire.refuses (hopen.bind _))⟩

/-! ### Any number of attempts -/

/-- What an attempt leaves. -/
def attempt (key : JournalIntegrityKey) (pointer : ActiveStatePointer) (directory : Directory)
    (outcomes : List Outcome) : Directory :=
  (publishActiveStatePointer key pointer .replaceExisting directory outcomes).2.1

/-- What attempts leave, one after the other, each with the outcomes of its calls. -/
def attempts (key : JournalIntegrityKey) (pointer : ActiveStatePointer) (directory : Directory)
    (runs : List (List Outcome)) : Directory :=
  runs.foldl (attempt key pointer) directory

/-- An attempt that has created the temporary and does not get to the end of the writes. -/
theorem attempt_unwritten {key : JournalIntegrityKey} {pointer : ActiveStatePointer}
    (hencode : encodeActiveStatePointer key pointer = .ok wire)
    (hnone : start.entries (temporaryBasename pointer) = none) {a b : ℕ} {outcomes : List Outcome}
    (h : (writeAll invalidActiveStatePointerPublisher start.fresh wire
      (start.create (temporaryBasename pointer)) outcomes).1 ≠ .ok ()) :
    attempt key pointer start (.done a :: .done b :: outcomes) =
      (writeAll invalidActiveStatePointerPublisher start.fresh wire
        (start.create (temporaryBasename pointer)) outcomes).2.1 := by
  have hcreate : createNew invalidActiveStatePointerPublisher (temporaryBasename pointer) start
      (.done b :: outcomes) =
        (.ok (some start.fresh), start.create (temporaryBasename pointer), outcomes) := by
    simp only [createNew, Process.call, hnone]
  unfold attempt publishActiveStatePointer publishWire openOrVerifyTemporary
  simp only [Bind.bind, ask, Process.call, mapError, hencode, lift, hcreate, writeOrVerify]
  generalize writeAll invalidActiveStatePointerPublisher start.fresh wire
    (start.create (temporaryBasename pointer)) outcomes = written at h ⊢
  obtain ⟨answer, directory, rest⟩ := written
  cases answer with
  | ok u => exact absurd rfl h
  | error e => rfl
  | stopped => rfl

/-- Its temporary is not the certificate. -/
theorem not_usable_unwritten {key : JournalIntegrityKey} {pointer : ActiveStatePointer}
    (hencode : encodeActiveStatePointer key pointer = .ok wire)
    (hnone : start.entries (temporaryBasename pointer) = none) (a b : ℕ) {outcomes : List Outcome}
    (h : (writeAll invalidActiveStatePointerPublisher start.fresh wire
      (start.create (temporaryBasename pointer)) outcomes).1 ≠ .ok ()) :
    ¬ Usable (temporaryBasename pointer) wire
      (attempt key pointer start (.done a :: .done b :: outcomes)) := by
  obtain ⟨n, hn, hentries, hcontent⟩ := writeAll_part (start.create_files_self _) h
  rw [attempt_unwritten hencode hnone h]
  intro husable
  obtain ⟨-, -, hbytes⟩ := husable start.fresh (by rw [hentries, start.create_entries_self])
  rw [hcontent] at hbytes
  have hlength : (wire.take n).length = wire.length := congrArg List.length hbytes
  rw [List.length_take] at hlength
  omega

theorem attempt_left {key : JournalIntegrityKey} {pointer : ActiveStatePointer}
    (hstart : start.WellFormed) (hencode : encodeActiveStatePointer key pointer = .ok wire)
    (outcomes : List Outcome) :
    Unfinished start (temporaryBasename pointer) wire (attempt key pointer start outcomes) ∨
      Switched start (temporaryBasename pointer) wire (attempt key pointer start outcomes) := by
  have hanswer := publishActiveStatePointer_spec hstart hencode .replaceExisting start outcomes rfl
  unfold attempt
  generalize publishActiveStatePointer key pointer .replaceExisting start outcomes =
    run at hanswer ⊢
  obtain ⟨answer, left, _⟩ := run
  cases answer with
  | ok => exact .inr hanswer.1
  | error => exact hanswer
  | stopped => exact hanswer

/-- What one attempt keeps, any number of them does. -/
theorem attempts_induct {key : JournalIntegrityKey} {pointer : ActiveStatePointer}
    {P : Directory → Prop} (hencode : encodeActiveStatePointer key pointer = .ok wire)
    (hstep : ∀ start left, start.WellFormed → P start →
      Unfinished start (temporaryBasename pointer) wire left ∨
        Switched start (temporaryBasename pointer) wire left → P left)
    (hstart : start.WellFormed) (hP : P start) (runs : List (List Outcome)) :
    (attempts key pointer start runs).WellFormed ∧ P (attempts key pointer start runs) := by
  induction runs generalizing start with
  | nil => exact ⟨hstart, hP⟩
  | cons outcomes runs ih =>
    have hleft := attempt_left hstart hencode outcomes
    refine ih ?_ (hstep start _ hstart hP hleft)
    rcases hleft with (hsame | ⟨_, _, _, hstaged⟩) | hswitched
    · rw [hsame]
      exact hstart
    · exact hstaged.wellFormed
    · exact hswitched.wellFormed

theorem Switched.shows (h : Switched start name wire directory) : Shows directory wire := by
  obtain ⟨file, hentry, hcontent⟩ := h.entry
  exact ⟨file, hentry, by rw [hcontent]; rfl, by rw [hcontent]; rfl⟩

/-- The pointer's file is on the disk, under the settled name too, with these bytes or those. -/
structure Durable (previous wire : List UInt8) (directory : Directory) : Prop where
  entry : ∃ file, directory.entries activeStateName = some file ∧
    (directory.files file).synced = true ∧
    ((directory.files file).bytes = previous ∨ (directory.files file).bytes = wire)
  settled : ∃ file, directory.settled activeStateName = some file ∧
    (directory.files file).synced = true ∧
    ((directory.files file).bytes = previous ∨ (directory.files file).bytes = wire)

theorem Durable.step {previous : List UInt8} (h : Durable previous wire start)
    (hstart : start.WellFormed)
    (hleft : Unfinished start name wire directory ∨ Switched start name wire directory) :
    Durable previous wire directory := by
  obtain ⟨⟨file, hentry, hsynced, hbytes⟩, file', hsettled, hsynced', hbytes'⟩ := h
  have hfile := hstart _ _ (.inl hentry)
  have hfile' := hstart _ _ (.inr hsettled)
  rcases hleft with (rfl | ⟨_, _, _, hstaged⟩) | hswitched
  · exact ⟨⟨file, hentry, hsynced, hbytes⟩, file', hsettled, hsynced', hbytes'⟩
  · have hretains := hstaged.files file hfile
    have hretains' := hstaged.files file' hfile'
    refine ⟨⟨file, hstaged.entry.trans hentry, hretains.keeps_synced hsynced, ?_⟩, file',
      (congrFun hstaged.settled _).trans hsettled, hretains'.keeps_synced hsynced', ?_⟩
    · rwa [hretains.bytes]
    · rwa [hretains'.bytes]
  · obtain ⟨new, hnew, hcontent⟩ := hswitched.entry
    have hcurrent : (directory.files new).synced = true ∧
        ((directory.files new).bytes = previous ∨ (directory.files new).bytes = wire) := by
      rw [hcontent]
      exact ⟨rfl, .inr rfl⟩
    refine ⟨⟨new, hnew, hcurrent⟩, ?_⟩
    rcases hswitched.settled with hold | hsettledNew
    · have hretains' := hswitched.files file' hfile'
      refine ⟨file', (congrFun hold _).trans hsettled, hretains'.keeps_synced hsynced', ?_⟩
      rwa [hretains'.bytes]
    · exact ⟨new, (congrFun hsettledNew _).trans hnew, hcurrent⟩

/-- A machine that stops comes back with one of the two. -/
theorem Durable.restarted {previous : List UInt8} {restarted : Directory}
    (h : Durable previous wire directory) (hstop : directory.MachineStop restarted) :
    ∃ file, restarted.entries activeStateName = some file ∧
      ((restarted.files file).bytes = previous ∨ (restarted.files file).bytes = wire) := by
  rcases hstop.entries activeStateName with hentry | hentry
  · obtain ⟨file, hfile, hsynced, hbytes⟩ := h.entry
    refine ⟨file, hentry.trans hfile, ?_⟩
    rwa [hstop.files file hsynced]
  · obtain ⟨file, hfile, hsynced, hbytes⟩ := h.settled
    refine ⟨file, hentry.trans hfile, ?_⟩
    rwa [hstop.files file hsynced]

end Attempt

/-- **Attempts at a publication.**  However many attempts have failed or stopped, and wherever, the
pointer shows the bytes from before or the new certificate, also after a stop of the machine.  A
temporary that they have made holds a part of the certificate.  The next attempt goes through if and
only if there is no temporary, or a complete one; it leaves the new certificate and no temporary.
Otherwise it fails, and changes nothing; so it is after an attempt that has created the temporary and
stopped or failed before its last write. -/
theorem pointer_attempts (key : JournalIntegrityKey) (pointer : ActiveStatePointer)
    (wire previous : List UInt8) (directory : Directory) (runs : List (List Outcome))
    (hencode : encodeActiveStatePointer key pointer = .ok wire) (hwell : directory.WellFormed)
    (hshows : Shows directory previous) :
    let left := attempts key pointer directory runs
    let next := publishActiveStatePointer key pointer .replaceExisting left
    (Shows left previous ∨ Shows left wire) ∧
    (Durable previous wire directory → ∀ restarted, left.MachineStop restarted →
      ∃ file, restarted.entries activeStateName = some file ∧
        ((restarted.files file).bytes = previous ∨ (restarted.files file).bytes = wire)) ∧
    (directory.entries (temporaryBasename pointer) = none →
      ∀ file, left.entries (temporaryBasename pointer) = some file →
        ∃ n synced, left.files file = .ofOwner (wire.take n) synced) ∧
    (Usable (temporaryBasename pointer) wire left ↔
      ∃ calls, ∀ counts : List ℕ, calls ≤ counts.length →
        (next (through counts)).1 = .ok () ∧ Shows (next (through counts)).2.1 wire ∧
          (next (through counts)).2.1.entries (temporaryBasename pointer) = none) ∧
    (¬ Usable (temporaryBasename pointer) wire left →
      (∀ outcomes, (next outcomes).1 ≠ .ok () ∧ (next outcomes).2.1 = left) ∧
      ∃ calls, ∀ counts : List ℕ, calls ≤ counts.length →
        (next (through counts)).1 = .error .invalidActiveStatePointerPublisher) ∧
    (left.entries (temporaryBasename pointer) = none → ∀ a b outcomes,
      (writeAll invalidActiveStatePointerPublisher left.fresh wire
        (left.create (temporaryBasename pointer)) outcomes).1 ≠ .ok () →
      ¬ Usable (temporaryBasename pointer) wire
        (attempt key pointer left (.done a :: .done b :: outcomes))) := by
  intro left next
  obtain ⟨hleft, hshown⟩ := attempts_induct (P := fun directory =>
    Shows directory previous ∨ Shows directory wire) hencode (by
      rintro start left hstart hshown ((rfl | ⟨_, _, _, hstaged⟩) | hswitched)
      · exact hshown
      · exact hshown.imp (hstaged.shows hstart) (hstaged.shows hstart)
      · exact .inr hswitched.shows) hwell (.inl hshows) runs
  -- the only obstacle to an attempt is a temporary that is not the certificate
  have hunusable : ¬ Usable (temporaryBasename pointer) wire left →
      ∃ file, left.entries (temporaryBasename pointer) = some file ∧
        ¬ Exact (temporaryBasename pointer) wire left file := by
    intro h
    simpa only [Usable, not_forall, exists_prop] using h
  refine ⟨hshown, fun hdurable restarted hstop => ?_, fun hnone => ?_, ⟨fun husable => ?_, ?_⟩,
    fun hnot => ?_, fun hnone a b outcomes h => not_usable_unwritten hencode hnone a b h⟩
  · -- after a machine stop the pointer is one of the two
    exact (attempts_induct hencode (fun _ _ hstart h hleft => h.step hstart hleft) hwell hdurable
      runs).2.restarted hstop
  · -- a temporary that only these attempts wrote is a part of the certificate
    refine (attempts_induct (P := fun directory => ∀ file,
      directory.entries (temporaryBasename pointer) = some file →
        ∃ n synced, directory.files file = .ofOwner (wire.take n) synced) hencode ?_ hwell ?_ runs).2
    · rintro start left - hpart ((rfl | ⟨file, n, synced, hstaged⟩) | hswitched)
      · exact hpart
      · intro other hother
        obtain rfl := Option.some.inj (hstaged.entryStaged.symm.trans hother)
        exact ⟨n, synced, hstaged.content⟩
      · intro other hother
        rw [hswitched.temporary] at hother
        cases hother
    · intro file hfile
      rw [hnone] at hfile
      cases hfile
  · -- the next attempt, when all of its calls go through
    obtain ⟨bytes, hbytes⟩ : ∃ bytes, Shows left bytes :=
      hshown.elim (fun h => ⟨previous, h⟩) fun h => ⟨wire, h⟩
    obtain ⟨calls, hsucceeds⟩ :=
      succeeds_publishActiveStatePointer hleft hencode hbytes husable
    refine ⟨calls, fun counts hlength => ?_⟩
    obtain ⟨_, last, rest, -, hrun, hswitched⟩ := hsucceeds left counts rfl hlength
    rw [show next (through counts) = _ from hrun]
    exact ⟨rfl, hswitched.shows, hswitched.temporary⟩
  · rintro ⟨calls, hnext⟩
    by_contra hnot
    obtain ⟨file, hentry, hdiffers⟩ := hunusable hnot
    exact (triple_publish_unusable hencode hentry hdiffers .replaceExisting left _ rfl).1
      (hnext (List.replicate calls 0) (Nat.le_of_eq List.length_replicate.symm)).1
  · obtain ⟨file, hentry, hdiffers⟩ := hunusable hnot
    refine ⟨fun outcomes => triple_publish_unusable hencode hentry hdiffers .replaceExisting left
      outcomes rfl, ?_⟩
    obtain ⟨calls, hrefuses⟩ := refuses_publish_unusable hencode hentry hdiffers .replaceExisting
    refine ⟨calls, fun counts hlength => ?_⟩
    obtain ⟨rest, hrun⟩ := hrefuses counts hlength
    rw [show next (through counts) = _ from hrun]

/-- A directory with nothing but a pointer. -/
def pointerDirectory (bytes : List UInt8) : Directory where
  files _ := .ofOwner bytes true
  entries name := if name = activeStateName then some 0 else none
  settled name := if name = activeStateName then some 0 else none
  fresh := 1
  mode := 0o700
  owned := true

/-- The pointer of a first generation. -/
def firstPointer : ActiveStatePointer where
  protocolVersion := 1
  transitionId := "t"
  finalGeneration := 1
  lineageId := "l"
  targetHistoryEpoch := ByteVec.zero 32
  origin := .restore
  databaseCertificateDigest := List.Vector.replicate 32 1

theorem wellFormed_pointerDirectory (bytes : List UInt8) : (pointerDirectory bytes).WellFormed := by
  intro name file hfile
  have hzero : (if name = activeStateName then some 0 else none) = some file := hfile.elim id id
  split_ifs at hzero
  obtain rfl := Option.some.inj hzero
  exact Nat.zero_lt_one

theorem entries_pointerDirectory (bytes : List UInt8) (name : String) :
    (pointerDirectory bytes).entries name = if name = activeStateName then some 0 else none := rfl

theorem shows_pointerDirectory (bytes : List UInt8) : Shows (pointerDirectory bytes) bytes :=
  ⟨0, by rw [entries_pointerDirectory, if_pos rfl], rfl, rfl⟩

theorem validate_firstPointer : validatePointer firstPointer = .ok () := by decide +kernel

theorem exists_encode_firstPointer (key : JournalIntegrityKey) :
    ∃ wire, encodeActiveStatePointer key firstPointer = .ok wire :=
  ⟨_, bind_eq_ok.2 ⟨(), validate_firstPointer, rfl⟩⟩

/-- The certificate, published over other bytes. -/
theorem pointer_attempts_first :
    let key : JournalIntegrityKey := ⟨ByteVec.zero 32⟩
    ∃ wire, encodeActiveStatePointer key firstPointer = .ok wire ∧ wire.length ≠ 1 ∧
      ∀ outcomes, (Shows (attempts key firstPointer (pointerDirectory [1]) [outcomes]) [1] ∨
        Shows (attempts key firstPointer (pointerDirectory [1]) [outcomes]) wire) := by
  intro key
  obtain ⟨wire, hencode⟩ := exists_encode_firstPointer key
  have hlength : wire.length ≠ 1 := by
    obtain ⟨⟨⟩, -, h⟩ := bind_eq_ok.1 hencode
    obtain rfl := Except.ok.inj h
    exact fun h => by cases h
  exact ⟨wire, hencode, hlength, fun outcomes => (pointer_attempts key firstPointer wire [1]
    (pointerDirectory [1]) _ hencode (wellFormed_pointerDirectory [1])
    (shows_pointerDirectory [1])).1⟩

/-- A publication that stops between the create and the first write cannot be resumed. -/
theorem pointer_publication_stuck :
    let key : JournalIntegrityKey := ⟨ByteVec.zero 32⟩
    ∃ wire, encodeActiveStatePointer key firstPointer = .ok wire ∧
      (pointerDirectory wire).WellFormed ∧ Shows (pointerDirectory wire) wire ∧
      (pointerDirectory wire).entries (temporaryBasename firstPointer) = none ∧
      ∀ outcomes, (publishActiveStatePointer key firstPointer .replaceExisting
        (attempt key firstPointer (pointerDirectory wire) [.done 0, .done 0]) outcomes).1 ≠
          .ok () := by
  intro key
  obtain ⟨wire, hencode⟩ := exists_encode_firstPointer key
  have hnone : (pointerDirectory wire).entries (temporaryBasename firstPointer) = none := by
    rw [entries_pointerDirectory, if_neg (temporaryBasename_ne firstPointer)]
  have hwire : wire ≠ [] := by
    obtain ⟨⟨⟩, -, h⟩ := bind_eq_ok.1 hencode
    obtain rfl := Except.ok.inj h
    exact nofun
  refine ⟨wire, hencode, wellFormed_pointerDirectory wire, shows_pointerDirectory wire, hnone, ?_⟩
  -- the process has stopped before the first write
  have hwrite : (writeAll invalidActiveStatePointerPublisher (pointerDirectory wire).fresh wire
      ((pointerDirectory wire).create (temporaryBasename firstPointer)) []) =
      (.stopped, (pointerDirectory wire).create (temporaryBasename firstPointer), []) := by
    rw [writeAll, if_neg (by rwa [List.isEmpty_iff])]
    rfl
  have hstopped : (writeAll invalidActiveStatePointerPublisher (pointerDirectory wire).fresh wire
      ((pointerDirectory wire).create (temporaryBasename firstPointer)) []).1 ≠ .ok () := by
    rw [hwrite]
    exact fun h => by cases h
  have hunusable := not_usable_unwritten hencode hnone 0 0 hstopped
  simp only [Usable, not_forall, exists_prop] at hunusable
  obtain ⟨file, hentry, hdiffers⟩ := hunusable
  exact fun outcomes => (triple_publish_unusable hencode hentry hdiffers .replaceExisting _ outcomes
    rfl).1

end MsgRiver.Journal
