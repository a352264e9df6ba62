import MsgRiver.Lib.Process
import Mathlib.Data.List.Basic

/-!
# A directory on a disk

Names point at files.  A process creates a name that is not there yet, appends to a file, renames a
name over another one in a single step, and syncs a file or the directory.  A process that stops
leaves the directory as it is.  A machine that stops keeps the bytes of the files that were synced,
and each name as it is or as it was when the directory was last synced (`MachineStop`).
-/

namespace MsgRiver

/-- A file: its bytes, whether they are on disk, and what `stat` tells. -/
structure File where
  bytes : List UInt8
  synced : Bool
  regular : Bool
  mode : UInt16
  owned : Bool
  links : ℕ
  deriving DecidableEq

/-- A file of this user that nobody else can open, as a process with the umask `0o077` creates it.
-/
def File.ofOwner (bytes : List UInt8) (synced : Bool) : File := ⟨bytes, synced, true, 0o600, true, 1⟩

/-- What a read of at most `buffer` bytes at `offset` transfers: something, unless the file ends
there. -/
def File.chunk (file : File) (offset buffer count : ℕ) : List UInt8 :=
  (file.bytes.drop offset).take (max 1 (min count buffer))

theorem File.chunk_eq_nil {file : File} {offset buffer count : ℕ} :
    file.chunk offset buffer count = [] ↔ file.bytes.length ≤ offset := by
  rw [chunk, List.take_eq_nil_iff, List.drop_eq_nil_iff]
  omega

theorem File.take_append_chunk (file : File) (offset buffer count : ℕ) :
    file.bytes.take offset ++ file.chunk offset buffer count =
      file.bytes.take (offset + max 1 (min count buffer)) := by
  rw [chunk, List.take_add]

/-- The files, and the names that lead to them. -/
structure Directory where
  files : ℕ → File
  entries : String → Option ℕ
  /-- The names at the last sync of the directory. -/
  settled : String → Option ℕ
  /-- The number of the next file. -/
  fresh : ℕ
  mode : UInt16
  owned : Bool

namespace Directory

/-- Another file behind the same number. -/
def setFile (directory : Directory) (file : ℕ) (content : File) : Directory :=
  { directory with files := Function.update directory.files file content }

/-- Another file behind one name. -/
def setEntry (directory : Directory) (name : String) (file : Option ℕ) : Directory :=
  { directory with entries := Function.update directory.entries name file }

/-- An empty file under a new name. -/
def create (directory : Directory) (name : String) : Directory :=
  { (directory.setFile directory.fresh (.ofOwner [] false)).setEntry name (some directory.fresh) with
    fresh := directory.fresh + 1 }

/-- Bytes behind those of a file. -/
def append (directory : Directory) (file : ℕ) (bytes : List UInt8) : Directory :=
  directory.setFile file { directory.files file with
    bytes := (directory.files file).bytes ++ bytes, synced := false }

/-- The bytes of a file are on disk. -/
def syncFile (directory : Directory) (file : ℕ) : Directory :=
  directory.setFile file { directory.files file with synced := true }

/-- A name for another one, which it replaces. -/
def rename (directory : Directory) (source target : String) : Directory :=
  (directory.setEntry target (directory.entries source)).setEntry source none

/-- The names are on disk. -/
def sync (directory : Directory) : Directory := { directory with settled := directory.entries }

/-- No name points at a number that is not in use. -/
def WellFormed (directory : Directory) : Prop :=
  ∀ name file, directory.entries name = some file ∨ directory.settled name = some file →
    file < directory.fresh

section Fields

variable (directory : Directory)

@[simp] theorem setFile_files_self (file : ℕ) (content : File) :
    (directory.setFile file content).files file = content := by
  simp [setFile]

theorem setFile_files_of_ne {file other : ℕ} (h : other ≠ file) (content : File) :
    (directory.setFile file content).files other = directory.files other := by
  simp [setFile, h]

@[simp] theorem setEntry_entries_self (name : String) (file : Option ℕ) :
    (directory.setEntry name file).entries name = file := by
  simp [setEntry]

theorem setEntry_entries_of_ne {name other : String} (h : other ≠ name) (file : Option ℕ) :
    (directory.setEntry name file).entries other = directory.entries other := by
  simp [setEntry, h]

@[simp] theorem create_entries_self (name : String) :
    (directory.create name).entries name = some directory.fresh :=
  setEntry_entries_self ..

@[simp] theorem create_files_self (name : String) :
    (directory.create name).files directory.fresh = .ofOwner [] false :=
  setFile_files_self ..

theorem rename_entries_target {source target : String} (h : source ≠ target) :
    (directory.rename source target).entries target = directory.entries source := by
  rw [rename, setEntry_entries_of_ne _ h.symm, setEntry_entries_self]

end Fields

section WellFormed

variable {directory : Directory}

theorem WellFormed.setEntry (h : directory.WellFormed) {name : String} {file : Option ℕ}
    (hfile : ∀ number, file = some number → number < directory.fresh) :
    (directory.setEntry name file).WellFormed := by
  rintro other number (hentry | hentry)
  · by_cases hother : other = name
    · subst hother
      rw [setEntry_entries_self] at hentry
      exact hfile number hentry
    · rw [setEntry_entries_of_ne _ hother] at hentry
      exact h other number (.inl hentry)
  · exact h other number (.inr hentry)

theorem WellFormed.create (h : directory.WellFormed) (name : String) :
    (directory.create name).WellFormed := by
  have hlarger : ({ directory.setFile directory.fresh (.ofOwner [] false) with
      fresh := directory.fresh + 1 } : Directory).WellFormed := fun other number hentry =>
    Nat.lt_succ_of_lt (h other number hentry)
  exact hlarger.setEntry fun number hnumber =>
    Option.some.inj hnumber ▸ Nat.lt_succ_self directory.fresh

theorem WellFormed.rename (h : directory.WellFormed) (source target : String) :
    (directory.rename source target).WellFormed :=
  (h.setEntry fun number hnumber => h source number (.inl hnumber)).setEntry nofun

theorem WellFormed.sync (h : directory.WellFormed) : directory.sync.WellFormed :=
  fun name number hentry => h name number (hentry.elim .inl .inl)

end WellFormed

/-- The machine stops and comes back. -/
structure MachineStop (before after : Directory) : Prop where
  entries : ∀ name, after.entries name = before.entries name ∨
    after.entries name = before.settled name
  files : ∀ file, (before.files file).synced = true → after.files file = before.files file
  mode : after.mode = before.mode
  owned : after.owned = before.owned

end Directory

/-! ### Calls -/

namespace Disk

variable {ε : Type}

/-- A call that answers from the directory and does not change it. -/
def ask {α : Type} (e : ε) (answer : Directory → α) : Process Directory ε α :=
  .call fun
    | .done _, directory => (.ok (answer directory), directory)
    | _, directory => (.error e, directory)

/-- A call that changes the directory. -/
def change (e : ε) (next : Directory → Directory) : Process Directory ε Unit :=
  .call fun
    | .done _, directory => (.ok (), next directory)
    | _, directory => (.error e, directory)

/-- The file behind a name, if there is one. -/
def openFile (e : ε) (name : String) : Process Directory ε (Option ℕ) := ask e (·.entries name)

/-- What an open file is. -/
def fstat (e : ε) (file : ℕ) : Process Directory ε File := ask e (·.files file)

/-- An exclusive create. -/
def createFile (e : ε) (name : String) : Process Directory ε ℕ :=
  .call fun
    | .done _, directory =>
      match directory.entries name with
      | some _ => (.error e, directory)
      | none => (.ok directory.fresh, directory.create name)
    | _, directory => (.error e, directory)

/-- One write of a loop that ends with the bytes. -/
def writeTurn (e : ε) (file : ℕ) (bytes : List UInt8) (outcome : Outcome) (directory : Directory) :
    Turn ε (List UInt8) Unit × Directory :=
  match outcome with
  | .done 0 => (.error e, directory)
  | .done count =>
    (if (bytes.drop count).isEmpty then .ok () else .again (bytes.drop count),
      directory.append file (bytes.take count))
  | .interrupted => (.again bytes, directory)
  | .failed => (.error e, directory)

theorem writeTurn_succ (e : ε) (file : ℕ) (bytes : List UInt8) (count : ℕ) (directory : Directory) :
    writeTurn e file bytes (.done (count + 1)) directory =
      (if (bytes.drop (count + 1)).isEmpty then .ok () else .again (bytes.drop (count + 1)),
        directory.append file (bytes.take (count + 1))) := rfl

/-- A loop of writes, until nothing is left. -/
def writeAll (e : ε) (file : ℕ) (bytes : List UInt8) : Process Directory ε Unit :=
  if bytes.isEmpty then pure () else .loop (writeTurn e file) bytes

/-- The bytes of a file are forced to disk. -/
def fsync (e : ε) (file : ℕ) : Process Directory ε Unit := change e (·.syncFile file)

/-- The names are forced to disk. -/
def fsyncDirectory (e : ε) : Process Directory ε Unit := change e (·.sync)

/-- A rename that replaces the target. -/
def rename (e : ε) (source target : String) : Process Directory ε Unit :=
  change e (·.rename source target)

/-- What `name` points at, with the number that identifies it. -/
def stat (e : ε) (name : String) : Process Directory ε (Option (ℕ × File)) :=
  ask e fun directory => (directory.entries name).map fun file => (file, directory.files file)

/-- An exclusive create that tells a name in use from a failure. -/
def createNew (e : ε) (name : String) : Process Directory ε (Option ℕ) :=
  .call fun
    | .done _, directory =>
      match directory.entries name with
      | some _ => (.ok none, directory)
      | none => (.ok (some directory.fresh), directory.create name)
    | _, directory => (.error e, directory)

/-- A rename that refuses a name in use. -/
def renameNoReplace (e : ε) (source target : String) : Process Directory ε Unit :=
  .call fun
    | .done _, directory =>
      match directory.entries target with
      | some _ => (.error e, directory)
      | none => (.ok (), directory.rename source target)
    | _, directory => (.error e, directory)

/-- One read of at most `buffer` bytes. -/
def readAt (e : ε) (file offset buffer : ℕ) : Process Directory ε (List UInt8) :=
  .call fun
    | .done count, directory => (.ok ((directory.files file).chunk offset buffer count), directory)
    | _, directory => (.error e, directory)

/-- One write, which reports how far it has come. -/
def writeOnce (e : ε) (file : ℕ) (bytes : List UInt8) : Process Directory ε ℕ :=
  .call fun
    | .done count, directory =>
      (.ok (min count bytes.length), directory.append file (bytes.take count))
    | _, directory => (.error e, directory)

/-- One read of a loop that fills a buffer of `size` bytes. -/
def fillTurn (e : ε) (file size : ℕ) (bytes : List UInt8) (outcome : Outcome)
    (directory : Directory) : Turn ε (List UInt8) (List UInt8) × Directory :=
  match outcome with
  | .done count =>
    let chunk := (directory.files file).chunk bytes.length (size - bytes.length) count
    (if chunk.isEmpty then .error e
      else if bytes.length + chunk.length < size then .again (bytes ++ chunk)
      else .ok (bytes ++ chunk), directory)
  | .interrupted => (.again bytes, directory)
  | .failed => (.error e, directory)

/-- One read that looks for the end of the file. -/
def endTurn (e : ε) (file offset : ℕ) (_ : Unit) (outcome : Outcome) (directory : Directory) :
    Turn ε Unit Unit × Directory :=
  match outcome with
  | .done count =>
    (if ((directory.files file).chunk offset 1 count).isEmpty then .ok () else .error e, directory)
  | .interrupted => (.again (), directory)
  | .failed => (.error e, directory)

/-- A loop of reads, until `size` bytes are there. -/
def readFull (e : ε) (file size : ℕ) : Process Directory ε (List UInt8) :=
  if size = 0 then pure [] else .loop (fillTurn e file size) []

/-- The bytes of a file that has exactly `size` of them. -/
def readExact (e : ε) (file size : ℕ) : Process Directory ε (List UInt8) := do
  let bytes ← readFull e file size
  .loop (endTurn e file bytes.length) ()
  return bytes

/-- An unlink whose result is ignored. -/
def unlink (name : String) : Process Directory ε Unit :=
  .call fun
    | .done _, directory => (.ok (), directory.setEntry name none)
    | _, directory => (.ok (), directory)

section Triple

variable {pre : Directory → Prop} {e : ε}

theorem triple_ask {α : Type} {answer : Directory → α} {post : Answer ε α → Directory → Prop}
    (hstopped : ∀ directory, pre directory → post .stopped directory)
    (herror : ∀ directory, pre directory → post (.error e) directory)
    (hok : ∀ directory, pre directory → post (.ok (answer directory)) directory) :
    Process.Triple pre (ask e answer) post := by
  refine .call hstopped fun outcome directory hpre => ?_
  cases outcome with
  | done => exact hok directory hpre
  | interrupted => exact herror directory hpre
  | failed => exact herror directory hpre

/-- A question, and the rest behind its answer. -/
theorem triple_ask_bind {α β : Type} {answer : Directory → α} {f : α → Process Directory ε β}
    {post : Answer ε β → Directory → Prop} {start : Directory} (hstopped : post .stopped start)
    (herror : post (.error e) start) (hok : Process.Triple (· = start) (f (answer start)) post) :
    Process.Triple (· = start) (ask e answer >>= f) post := by
  refine .bind_start (· = answer start) (triple_ask ?_ ?_ ?_) ?_
  · exact fun _ h => ⟨h, hstopped⟩
  · exact fun _ h => ⟨h, herror⟩
  · rintro _ rfl
    exact ⟨rfl, rfl⟩
  · rintro _ rfl
    exact hok

theorem triple_change {next : Directory → Directory} {post : Answer ε Unit → Directory → Prop}
    (hstopped : ∀ directory, pre directory → post .stopped directory)
    (herror : ∀ directory, pre directory → post (.error e) directory)
    (hok : ∀ directory, pre directory → post (.ok ()) (next directory)) :
    Process.Triple pre (change e next) post := by
  refine .call hstopped fun outcome directory hpre => ?_
  cases outcome with
  | done => exact hok directory hpre
  | interrupted => exact herror directory hpre
  | failed => exact herror directory hpre

theorem triple_createFile {name : String} {post : Answer ε ℕ → Directory → Prop}
    (hstopped : ∀ directory, pre directory → post .stopped directory)
    (herror : ∀ directory, pre directory → post (.error e) directory)
    (hok : ∀ directory, pre directory → directory.entries name = none →
      post (.ok directory.fresh) (directory.create name)) :
    Process.Triple pre (createFile e name) post := by
  refine .call hstopped fun outcome directory hpre => ?_
  cases outcome with
  | done =>
    dsimp only
    cases hentry : directory.entries name with
    | some file => exact herror directory hpre
    | none => exact hok directory hpre hentry
  | interrupted => exact herror directory hpre
  | failed => exact herror directory hpre

theorem triple_readAt {file offset buffer : ℕ} {post : Answer ε (List UInt8) → Directory → Prop}
    (hstopped : ∀ directory, pre directory → post .stopped directory)
    (herror : ∀ directory, pre directory → post (.error e) directory)
    (hok : ∀ directory count, pre directory →
      post (.ok ((directory.files file).chunk offset buffer count)) directory) :
    Process.Triple pre (readAt e file offset buffer) post := by
  refine .call hstopped fun outcome directory hpre => ?_
  cases outcome with
  | done count => exact hok directory count hpre
  | interrupted => exact herror directory hpre
  | failed => exact herror directory hpre

theorem triple_writeOnce {file : ℕ} {bytes : List UInt8} {post : Answer ε ℕ → Directory → Prop}
    (hstopped : ∀ directory, pre directory → post .stopped directory)
    (herror : ∀ directory, pre directory → post (.error e) directory)
    (hok : ∀ directory count, pre directory →
      post (.ok (min count bytes.length)) (directory.append file (bytes.take count))) :
    Process.Triple pre (writeOnce e file bytes) post := by
  refine .call hstopped fun outcome directory hpre => ?_
  cases outcome with
  | done count => exact hok directory count hpre
  | interrupted => exact herror directory hpre
  | failed => exact herror directory hpre

theorem triple_createNew {name : String} {post : Answer ε (Option ℕ) → Directory → Prop}
    (hstopped : ∀ directory, pre directory → post .stopped directory)
    (herror : ∀ directory, pre directory → post (.error e) directory)
    (hused : ∀ directory file, pre directory → directory.entries name = some file →
      post (.ok none) directory)
    (hok : ∀ directory, pre directory → directory.entries name = none →
      post (.ok (some directory.fresh)) (directory.create name)) :
    Process.Triple pre (createNew e name) post := by
  refine .call hstopped fun outcome directory hpre => ?_
  cases outcome with
  | done =>
    dsimp only
    cases hentry : directory.entries name with
    | some file => exact hused directory file hpre hentry
    | none => exact hok directory hpre hentry
  | interrupted => exact herror directory hpre
  | failed => exact herror directory hpre

theorem triple_renameNoReplace {source target : String} {post : Answer ε Unit → Directory → Prop}
    (hstopped : ∀ directory, pre directory → post .stopped directory)
    (herror : ∀ directory, pre directory → post (.error e) directory)
    (hok : ∀ directory, pre directory → directory.entries target = none →
      post (.ok ()) (directory.rename source target)) :
    Process.Triple pre (renameNoReplace e source target) post := by
  refine .call hstopped fun outcome directory hpre => ?_
  cases outcome with
  | done =>
    dsimp only
    cases hentry : directory.entries target with
    | some file => exact herror directory hpre
    | none => exact hok directory hpre hentry
  | interrupted => exact herror directory hpre
  | failed => exact herror directory hpre

theorem triple_unlink {name : String} {post : Answer ε Unit → Directory → Prop}
    (hstopped : ∀ directory, pre directory → post .stopped directory)
    (hkept : ∀ directory, pre directory → post (.ok ()) directory)
    (hok : ∀ directory, pre directory → post (.ok ()) (directory.setEntry name none)) :
    Process.Triple pre (unlink name : Process Directory ε Unit) post := by
  refine .call hstopped fun outcome directory hpre => ?_
  cases outcome with
  | done => exact hok directory hpre
  | interrupted => exact hkept directory hpre
  | failed => exact hkept directory hpre

/-- Writing bytes in any number of writes: `inv rest` holds while `rest` is still to be written. -/
theorem triple_writeAll {file : ℕ} (inv : List UInt8 → Directory → Prop)
    {post : Answer ε Unit → Directory → Prop}
    (hstopped : ∀ rest directory, inv rest directory → post .stopped directory)
    (herror : ∀ rest directory, inv rest directory → post (.error e) directory)
    (hwrite : ∀ rest count directory, inv rest directory →
      inv (rest.drop count) (directory.append file (rest.take count)))
    (hok : ∀ directory, inv [] directory → post (.ok ()) directory) (bytes : List UInt8) :
    Process.Triple (inv bytes) (writeAll e file bytes) post := by
  unfold writeAll
  split_ifs with hempty
  · rw [List.isEmpty_iff] at hempty
    subst hempty
    exact .pure hok
  · refine .loop inv hstopped (fun rest outcome directory hinv => ?_) bytes
    cases outcome with
    | interrupted => exact hinv
    | failed => exact herror rest directory hinv
    | done count =>
      cases count with
      | zero => exact herror rest directory hinv
      | succ count =>
        have hnext := hwrite rest (count + 1) directory hinv
        rw [writeTurn_succ]
        by_cases hend : (rest.drop (count + 1)).isEmpty = true
        · rw [if_pos hend]
          rw [List.isEmpty_iff.1 hend] at hnext
          exact hok _ hnext
        · rw [if_neg hend]
          exact hnext

theorem append_ofOwner {directory : Directory} {file : ℕ} {prior : List UInt8}
    (h : directory.files file = .ofOwner prior false) (bytes : List UInt8) :
    (directory.append file bytes).files file = .ofOwner (prior ++ bytes) false := by
  rw [Directory.append, Directory.setFile_files_self, h]
  rfl

/-- The turns of a write that stops or fails leave a part of the bytes. -/
theorem loop_writeTurn_part {file : ℕ} {bytes prior : List UInt8} {directory : Directory}
    (outcomes : List Outcome) (hfile : directory.files file = .ofOwner prior false)
    (hbytes : bytes ≠ [])
    (h : (Process.loop.go (writeTurn e file) outcomes bytes directory).1 ≠ .ok ()) :
    ∃ n < bytes.length,
      (Process.loop.go (writeTurn e file) outcomes bytes directory).2.1.entries =
        directory.entries ∧
      (Process.loop.go (writeTurn e file) outcomes bytes directory).2.1.files file =
        .ofOwner (prior ++ bytes.take n) false := by
  have hpos : 0 < bytes.length := List.length_pos_of_ne_nil hbytes
  have hnone : directory.files file = .ofOwner (prior ++ bytes.take 0) false := by
    rw [List.take_zero, List.append_nil]
    exact hfile
  induction outcomes generalizing bytes prior directory with
  | nil => exact ⟨0, hpos, rfl, hnone⟩
  | cons outcome outcomes ih =>
    rw [Process.loop.go] at h ⊢
    cases outcome with
    | interrupted => exact ih hfile hbytes h hpos hnone
    | failed => exact ⟨0, hpos, rfl, hnone⟩
    | done count =>
      cases count with
      | zero => exact ⟨0, hpos, rfl, hnone⟩
      | succ count =>
        rw [writeTurn_succ] at h ⊢
        by_cases hend : (bytes.drop (count + 1)).isEmpty = true
        · rw [if_pos hend] at h
          exact absurd rfl h
        · -- what is left is written behind what has been written
          rw [if_neg hend] at h ⊢
          have hrest : bytes.drop (count + 1) ≠ [] := fun hnil => hend (List.isEmpty_iff.2 hnil)
          have hlength := List.length_pos_of_ne_nil hrest
          have hnext := append_ofOwner hfile (bytes.take (count + 1))
          obtain ⟨n, hn, hentries, hcontent⟩ := ih hnext hrest h hlength (by simpa using hnext)
          rw [List.length_drop] at hn
          refine ⟨count + 1 + n, by omega, hentries, hcontent.trans ?_⟩
          rw [List.append_assoc, ← List.take_add]

/-- Writing that stops or fails leaves a part of the bytes. -/
theorem writeAll_part {file : ℕ} {bytes prior : List UInt8} {directory : Directory}
    {outcomes : List Outcome} (hfile : directory.files file = .ofOwner prior false)
    (h : (writeAll e file bytes directory outcomes).1 ≠ .ok ()) :
    ∃ n < bytes.length,
      (writeAll e file bytes directory outcomes).2.1.entries = directory.entries ∧
      (writeAll e file bytes directory outcomes).2.1.files file =
        .ofOwner (prior ++ bytes.take n) false := by
  unfold writeAll at h ⊢
  by_cases hempty : bytes.isEmpty = true
  · rw [if_pos hempty] at h
    exact absurd rfl h
  · rw [if_neg hempty] at h ⊢
    exact loop_writeTurn_part outcomes hfile (fun hnil => hempty (List.isEmpty_iff.2 hnil)) h

end Triple

/-! ### Reading a file to its end -/

section ReadExact

variable {e : ε} {start : Directory} {file size : ℕ}

/-- A turn of the reading loop fails at the end of the file, ends with a full buffer, or goes on. -/
theorem fillTurn_done {bytes : List UInt8} (count : ℕ) (hsize : bytes.length < size)
    (hbytes : bytes = (start.files file).bytes.take bytes.length) :
    ((start.files file).bytes.length ≤ bytes.length ∧
      fillTurn e file size bytes (.done count) start = (.error e, start)) ∨
    ∃ next, next = (start.files file).bytes.take next.length ∧ bytes.length < next.length ∧
      next.length ≤ (start.files file).bytes.length ∧
      (next.length < size ∧ fillTurn e file size bytes (.done count) start = (.again next, start) ∨
        next.length = size ∧ fillTurn e file size bytes (.done count) start =
          (.ok next, start)) := by
  set content := (start.files file).bytes with hcontent
  set chunk := (start.files file).chunk bytes.length (size - bytes.length) count with hchunk
  -- a transfer moves the prefix on by at least one byte, or the file has ended
  have happend :
      bytes ++ chunk = content.take (bytes.length + max 1 (min count (size - bytes.length))) := by
    rw [← File.take_append_chunk, ← hbytes]
  have hlength : (bytes ++ chunk).length =
      min (bytes.length + max 1 (min count (size - bytes.length))) content.length := by
    rw [happend, List.length_take]
  have hturn : fillTurn e file size bytes (.done count) start =
      (if chunk.isEmpty then .error e
        else if bytes.length + chunk.length < size then .again (bytes ++ chunk)
        else .ok (bytes ++ chunk), start) := rfl
  rw [hturn]
  by_cases hend : chunk = []
  · have hle : content.length ≤ bytes.length := File.chunk_eq_nil.1 hend
    refine .inl ⟨hle, ?_⟩
    rw [hend, List.isEmpty_nil, if_pos rfl]
  · have hpos : 0 < chunk.length := List.length_pos_iff.2 hend
    have hnext : bytes ++ chunk = content.take (bytes ++ chunk).length := by
      conv_lhs => rw [happend]
      rw [hlength, List.take_eq_take_min]
    rw [List.length_append] at hlength
    refine .inr ⟨bytes ++ chunk, hnext, by rw [List.length_append]; omega,
      by rw [List.length_append]; omega, ?_⟩
    rw [if_neg (by rwa [List.isEmpty_iff]), List.length_append]
    by_cases hfull : bytes.length + chunk.length < size
    · rw [if_pos hfull]
      exact .inl ⟨hfull, rfl⟩
    · rw [if_neg hfull]
      exact .inr ⟨by omega, rfl⟩

theorem endTurn_done (count : ℕ) (start : Directory) (file offset : ℕ) :
    endTurn e file offset () (.done count) start =
      (if (start.files file).bytes.length ≤ offset then .ok () else .error e, start) := by
  simp only [endTurn, List.isEmpty_iff, File.chunk_eq_nil]

/-- What is read is the whole file, and its length is the one asked for. -/
theorem triple_readExact :
    Process.Triple (· = start) (readExact e file size) fun answer directory => directory = start ∧
      match answer with
      | .ok bytes => bytes = (start.files file).bytes ∧ bytes.length = size
      | .error e' => e' = e
      | .stopped => True := by
  refine .bind_start (fun bytes => bytes.length = size ∧
    bytes = (start.files file).bytes.take bytes.length) ?_ ?_
  · unfold readFull
    split_ifs with hzero
    · exact .pure fun _ hstart => ⟨hstart, hzero.symm, rfl⟩
    · -- between the reads, the bytes so far are the first ones of the file
      refine (Process.Triple.loop (fun bytes directory => directory = start ∧
        bytes.length < size ∧ bytes = (start.files file).bytes.take bytes.length) ?_ ?_ []).mono ?_
        fun _ _ h => h
      · exact fun _ _ h => ⟨h.1, rfl, trivial⟩
      · rintro bytes outcome _ ⟨rfl, hsize, hbytes⟩
        cases outcome with
        | interrupted => exact ⟨rfl, hsize, hbytes⟩
        | failed => exact ⟨rfl, rfl, rfl⟩
        | done count =>
          rcases fillTurn_done count hsize hbytes with ⟨-, hturn⟩ |
            ⟨next, hnext, -, -, ⟨hlt, hturn⟩ | ⟨hfull, hturn⟩⟩
          · rw [hturn]
            exact ⟨rfl, rfl, rfl⟩
          · rw [hturn]
            exact ⟨rfl, hlt, hnext⟩
          · rw [hturn]
            exact ⟨rfl, hfull, hnext⟩
      · exact fun _ hstart => ⟨hstart, Nat.pos_of_ne_zero hzero, rfl⟩
  rintro bytes ⟨hsize, hbytes⟩
  refine .bind_start (fun _ => bytes = (start.files file).bytes) ?_ fun _ hwhole =>
    .pure fun _ hstart => ⟨hstart, hwhole, hsize⟩
  refine Process.Triple.loop (fun _ directory => directory = start)
    (fun _ _ h => ⟨h, rfl, trivial⟩) ?_ ()
  rintro _ outcome _ rfl
  cases outcome with
  | interrupted => exact rfl
  | failed => exact ⟨rfl, rfl, rfl⟩
  | done count =>
    rw [endTurn_done]
    split_ifs with hend
    · rw [List.take_of_length_le hend] at hbytes
      exact ⟨rfl, hbytes⟩
    · exact ⟨rfl, rfl, rfl⟩

/-- When no call fails, a file of this length is read. -/
theorem answers_readExact (hsize : (start.files file).bytes.length = size) :
    Process.Answers (readExact e file size) start (size + 1 + (1 + 0)) (start.files file).bytes := by
  have hread : Process.Answers (readFull e file size) start (size + 1) (start.files file).bytes := by
    unfold readFull
    split_ifs with hzero
    · have hnil : (start.files file).bytes = [] := List.length_eq_zero_iff.1 (hsize.trans hzero)
      rw [hnil]
      exact (Process.answers_pure []).of_le (Nat.zero_le _)
    · refine (Process.Succeeds.loop (fun bytes directory => directory = start ∧
        bytes.length < size ∧ bytes = (start.files file).bytes.take bytes.length)
        (fun bytes => size - bytes.length) ?_ []).mono ?_ fun _ _ h => h
      · rintro bytes count _ ⟨rfl, hlt, hbytes⟩
        rcases fillTurn_done (count + 1) hlt hbytes with ⟨hend, -⟩ |
          ⟨next, hnext, hlonger, -, ⟨hmore, hturn⟩ | ⟨hfull, hturn⟩⟩
        · omega
        · exact .inl ⟨next, _, hturn, ⟨rfl, hmore, hnext⟩, by omega⟩
        · rw [List.take_of_length_le (by omega)] at hnext
          exact .inr ⟨next, _, hturn, hnext, rfl⟩
      · exact fun _ hstart => ⟨hstart, Nat.pos_of_ne_zero hzero, rfl⟩
  have hend :
      Process.Answers (.loop (endTurn e file (start.files file).bytes.length) ()) start 1 () := by
    refine (Process.Succeeds.loop (fun _ directory => directory = start) (fun _ => 0) ?_ ()).mono
      (fun _ h => h) fun _ _ h => h
    rintro _ count _ rfl
    exact .inr ⟨(), _, by rw [endTurn_done, if_pos (Nat.le_refl _)], rfl, rfl⟩
  exact hread.bind (hend.bind (Process.answers_pure _))

end ReadExact

section Succeeds

variable {pre : Directory → Prop} {e : ε}

theorem succeeds_ask {α : Type} {answer : Directory → α} {post : α → Directory → Prop}
    (h : ∀ directory, pre directory → post (answer directory) directory) :
    Process.Succeeds pre (ask e answer) 1 post :=
  .call fun directory _ hpre => ⟨answer directory, directory, rfl, h directory hpre⟩

theorem answers_ask {α : Type} (answer : Directory → α) (directory : Directory) :
    Process.Answers (ask e answer) directory 1 (answer directory) := by
  refine succeeds_ask ?_
  rintro _ rfl
  exact ⟨rfl, rfl⟩

theorem succeeds_change {next : Directory → Directory} {post : Unit → Directory → Prop}
    (h : ∀ directory, pre directory → post () (next directory)) :
    Process.Succeeds pre (change e next) 1 post :=
  .call fun directory _ hpre => ⟨(), next directory, rfl, h directory hpre⟩

theorem succeeds_createFile {name : String} {post : ℕ → Directory → Prop}
    (h : ∀ directory, pre directory → directory.entries name = none ∧
      post directory.fresh (directory.create name)) :
    Process.Succeeds pre (createFile e name) 1 post := by
  refine .call fun directory _ hpre => ?_
  obtain ⟨hentry, hpost⟩ := h directory hpre
  refine ⟨directory.fresh, directory.create name, ?_, hpost⟩
  dsimp only
  rw [hentry]

theorem succeeds_createNew {name : String} {post : Option ℕ → Directory → Prop}
    (h : ∀ directory, pre directory → directory.entries name = none ∧
      post (some directory.fresh) (directory.create name)) :
    Process.Succeeds pre (createNew e name) 1 post := by
  refine .call fun directory _ hpre => ?_
  obtain ⟨hentry, hpost⟩ := h directory hpre
  refine ⟨some directory.fresh, directory.create name, ?_, hpost⟩
  dsimp only
  rw [hentry]

/-- A name in use is found. -/
theorem answers_createNew {name : String} {start : Directory} {file : ℕ}
    (hentry : start.entries name = some file) :
    Process.Answers (createNew e name) start 1 none := by
  refine .call ?_
  rintro _ _ rfl
  refine ⟨none, _, ?_, rfl, rfl⟩
  dsimp only
  rw [hentry]

theorem succeeds_writeAll {file : ℕ} (inv : List UInt8 → Directory → Prop)
    {post : Unit → Directory → Prop}
    (hwrite : ∀ rest count directory, inv rest directory →
      inv (rest.drop count) (directory.append file (rest.take count)))
    (hok : ∀ directory, inv [] directory → post () directory) (bytes : List UInt8) :
    Process.Succeeds (inv bytes) (writeAll e file bytes) (bytes.length + 1) post := by
  unfold writeAll
  split_ifs with hempty
  · rw [List.isEmpty_iff] at hempty
    subst hempty
    exact (Process.Succeeds.pure hok).of_le (Nat.zero_le _)
  · refine .loop inv List.length (fun rest count directory hinv => ?_) bytes
    have hnext := hwrite rest (count + 1) directory hinv
    rw [writeTurn_succ]
    by_cases hend : (rest.drop (count + 1)).isEmpty = true
    · rw [if_pos hend]
      rw [List.isEmpty_iff.1 hend] at hnext
      exact .inr ⟨(), _, rfl, hok _ hnext⟩
    · rw [if_neg hend]
      rw [List.isEmpty_iff, List.drop_eq_nil_iff, Nat.not_le] at hend
      refine .inl ⟨_, _, rfl, hnext, ?_⟩
      rw [List.length_drop]
      omega

end Succeeds

end Disk

end MsgRiver
