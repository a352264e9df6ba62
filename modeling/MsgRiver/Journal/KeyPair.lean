import MsgRiver.Lib.Disk
import MsgRiver.Journal.Envelope

/-!
# The initialization keys

Two keys are drawn once and kept under fixed names in the owner's directory.  A publication refuses
a directory in which one of the four names (a temporary and a final one for each key) is in use.
Otherwise it draws the keys, and for one key after the other it creates the temporary, writes it
with one write, syncs it, renames it to the final name and syncs the directory.  Nothing is retried
or removed.  A load refuses a directory with a temporary, and reads the two final names.

`publishWith_spec` says what a publication leaves at every point where it can end, `loadWith_spec`
what a load can answer; `initialization_keys_written_once` puts them together over any sequence of
publications and loads.
-/

namespace MsgRiver.Journal

open Bytes Result Process Disk

/-! ### Drawing the keys -/

/-- The keys that an initialization draws: one authenticates the control journal, the other one
covers portable reservations. -/
inductive InitializationKeyRole
  | journalIntegrity
  | portableReservation
  deriving DecidableEq, Repr

/-- Why a source of randomness gives nothing. -/
inductive EntropyFailure
  | failed
  | missingOsAdapter
  deriving DecidableEq, Repr

/-- What a source puts into the destination for each role, and how many bytes it reports. -/
abbrev InitializationEntropySource := InitializationKeyRole → Except EntropyFailure (ByteVec 32 × ℕ)

/-- The key of portable reservations. -/
structure PortableReservationKey where
  bytes : ByteVec 32
  deriving DecidableEq

/-- The two keys, which `acquireInitializationKeyPairWith` has found to be different. -/
structure InitializationKeyPair where
  journalIntegrity : JournalIntegrityKey
  portableReservation : PortableReservationKey
  deriving DecidableEq

/-- Why a pair was not drawn: no bytes, too few of them, only zeros, or the same key twice. -/
inductive InitializationKeyPairError
  | entropy (role : InitializationKeyRole)
  | incomplete (role : InitializationKeyRole)
  | zero (role : InitializationKeyRole)
  | equal
  | missingAcquisition
  deriving DecidableEq, Repr

/-- One complete sample that is not zero. -/
def acquireKey (source : InitializationEntropySource) (role : InitializationKeyRole) :
    Except InitializationKeyPairError (ByteVec 32) := do
  let sample ← (source role).mapError fun _ => .entropy role
  reject (sample.2 != 32) (.incomplete role)
  reject (sample.1.toList.all (· == 0)) (.zero role)
  return sample.1

/-- Both keys, the one of the journal first; a pair of equal keys is refused. -/
def acquireInitializationKeyPairWith (source : InitializationEntropySource) :
    Except InitializationKeyPairError InitializationKeyPair := do
  let journalIntegrity ← acquireKey source .journalIntegrity
  let portableReservation ← acquireKey source .portableReservation
  reject (journalIntegrity == portableReservation) .equal
  return ⟨⟨journalIntegrity⟩, ⟨portableReservation⟩⟩

/-- The key of a role. -/
def InitializationKeyPair.key (pair : InitializationKeyPair) : InitializationKeyRole → ByteVec 32
  | .journalIntegrity => pair.journalIntegrity.bytes
  | .portableReservation => pair.portableReservation.bytes

/-! ### Names -/

/-- The name under which a key is written, before the file is renamed. -/
def keyTemporary : InitializationKeyRole → String
  | .journalIntegrity => ".initialization-journal-integrity.tmp"
  | .portableReservation => ".initialization-portable-reservation.tmp"

/-- The name under which a key is published. -/
def keyFinal : InitializationKeyRole → String
  | .journalIntegrity => "initialization-journal-integrity.key"
  | .portableReservation => "initialization-portable-reservation.key"

/-- The four names, in the order in which a publication looks at them. -/
def keyNames : List String :=
  [keyTemporary .journalIntegrity, keyFinal .journalIntegrity, keyTemporary .portableReservation,
    keyFinal .portableReservation]

/-! ### Publication -/

/-- A hook runs before a step and after it. -/
inductive Phase
  | before
  | after
  deriving DecidableEq, Repr

/-- The steps of a publication, at which `PublicationHooks` may interfere. -/
inductive Step
  | policy
  | guard
  | lock
  | openRoot
  | preflight (index : UInt8)
  | create (role : InitializationKeyRole)
  | write (role : InitializationKeyRole)
  | fileSync (role : InitializationKeyRole)
  | rename (role : InitializationKeyRole)
  | directorySync (role : InitializationKeyRole)
  deriving DecidableEq

/-- What a hook asks for.  With `writeLimit` a write stops after so many bytes. -/
inductive Directive
  | continue
  | fail
  | writeLimit (count : ℕ)
  deriving DecidableEq

/-- What the hooks say at each point of a run; no point is passed twice. -/
abbrev PublicationHooks := Step → Phase → Directive

/-- The step at which a publication failed. -/
inductive PublicationError
  | missingPublication
  | policy
  | root
  | lock
  | directory
  | existingEntry
  | entropy (e : InitializationKeyPairError)
  | io (step : Step)
  deriving DecidableEq

/-- The error of a step that a hook fails. -/
def Step.error : Step → PublicationError
  | policy => .policy
  | guard => .root
  | lock => .lock
  | openRoot => .directory
  | preflight _ => .directory
  | step => .io step

/-- Asks the hook.  A write limit is taken at a write only. -/
def observe (hooks : PublicationHooks) (step : Step) (phase : Phase) :
    Except PublicationError Directive :=
  match hooks step phase with
  | .continue => .ok .continue
  | .writeLimit count =>
    match step, phase with
    | .write _, .before => .ok (.writeLimit count)
    | _, _ => .error step.error
  | .fail => .error step.error

/-- A publication, with the files of the state directory. -/
abbrev PublicationProcess := Process Directory PublicationError

/-- A step between its two notifications. -/
def around {α : Type} (hooks : PublicationHooks) (step : Step) (x : PublicationProcess α) :
    PublicationProcess α := do
  let _ ← lift (observe hooks step .before)
  let a ← x
  let _ ← lift (observe hooks step .after)
  return a

/-- One descriptor of the owner's private directory. -/
def openPrivateRoot {ε : Type} (e : ε) : Process Directory ε Unit := do
  -- the path as a C string, then `openat`
  ask e fun _ => ()
  ask e fun _ => ()
  let opened ← ask e fun directory => (directory.mode, directory.owned)
  -- `fstat` of the reference; a directory that has been rebound counts as a failure
  ask e fun _ => ()
  lift (reject (opened.1 != 0o700 || !opened.2) e)

/-- No name is in use. -/
def preflightNames (hooks : PublicationHooks) : UInt8 → List String → PublicationProcess Unit
  | _, [] => pure ()
  | index, name :: names => do
    around hooks (.preflight index) do
      let entry ← stat .directory name
      lift (reject entry.isSome .existingEntry)
    preflightNames hooks (index + 1) names

/-- The steps before the keys are drawn. -/
def preparePublication (hooks : PublicationHooks) : PublicationProcess Unit := do
  around hooks .policy (ask .policy fun _ => ())
  around hooks .guard (ask .root fun _ => ())
  around hooks .lock (ask .lock fun _ => ())
  around hooks .openRoot (openPrivateRoot .directory)
  preflightNames hooks 0 keyNames

/-- One write, of at most as many bytes as a hook allows. -/
def writeKey (hooks : PublicationHooks) (role : InitializationKeyRole) (file : ℕ)
    (bytes : List UInt8) : PublicationProcess Unit := do
  let directive ← lift (observe hooks (.write role) .before)
  let count := match directive with
    | .writeLimit count => min count bytes.length
    | _ => bytes.length
  let written ← writeOnce (.io (.write role)) file (bytes.take count)
  lift (reject (written != bytes.length) (.io (.write role)))
  let _ ← lift (observe hooks (.write role) .after)

/-- The barrier of one key. -/
def publishKey (hooks : PublicationHooks) (role : InitializationKeyRole) (bytes : List UInt8) :
    PublicationProcess Unit := do
  let file ← around hooks (.create role) (createFile (.io (.create role)) (keyTemporary role))
  writeKey hooks role file bytes
  around hooks (.fileSync role) (fsync (.io (.fileSync role)) file)
  around hooks (.rename role)
    (renameNoReplace (.io (.rename role)) (keyTemporary role) (keyFinal role))
  around hooks (.directorySync role) (fsyncDirectory (.io (.directorySync role)))

/-- `publish_with`: draws the pair, then writes and renames the keys one after the other. -/
def publishWith (source : InitializationEntropySource) (hooks : PublicationHooks) :
    PublicationProcess Unit := do
  preparePublication hooks
  let pair ← (lift (acquireInitializationKeyPairWith source)).mapError .entropy
  publishKey hooks .journalIntegrity pair.journalIntegrity.bytes.toList
  publishKey hooks .portableReservation pair.portableReservation.bytes.toList

/-! ### Load -/

/-- The steps of a load, at which `LoadHooks` may interfere. -/
inductive LoadStep
  | policy
  | guard
  | lock
  | openRoot
  | temporaryPreflight (index : UInt8)
  | open (role : InitializationKeyRole)
  | read (role : InitializationKeyRole)
  | verify (role : InitializationKeyRole)
  deriving DecidableEq

/-- What a hook of a load asks for. -/
inductive LoadDirective
  | continue
  | fail
  deriving DecidableEq, Repr

/-- The hooks of a load. -/
abbrev LoadHooks := LoadStep → Phase → LoadDirective

/-- The step at which a load failed. -/
inductive LoadError
  | missingLoad
  | policy
  | root
  | lock
  | directory
  | temporaryEntry
  | entry (role : InitializationKeyRole)
  | io (step : LoadStep)
  | invalid (role : InitializationKeyRole)
  | equal
  deriving DecidableEq

/-- The error of a step. -/
def LoadStep.error : LoadStep → LoadError
  | policy => .policy
  | guard => .root
  | lock => .lock
  | openRoot => .directory
  | temporaryPreflight _ => .directory
  | step => .io step

/-- Asks the hook of a load. -/
def observeLoad (hooks : LoadHooks) (step : LoadStep) (phase : Phase) : Except LoadError Unit :=
  reject (hooks step phase != .continue) step.error

/-- A load, with the files of the state directory. -/
abbrev LoadProcess := Process Directory LoadError

/-- A step between its two notifications. -/
def aroundLoad {α : Type} (hooks : LoadHooks) (step : LoadStep) (x : LoadProcess α) :
    LoadProcess α := do
  lift (observeLoad hooks step .before)
  let a ← x
  lift (observeLoad hooks step .after)
  return a

/-- No temporary is there. -/
def preflightTemporaries (hooks : LoadHooks) : UInt8 → List String → LoadProcess Unit
  | _, [] => pure ()
  | index, name :: names => do
    aroundLoad hooks (.temporaryPreflight index) do
      let entry ← stat .directory name
      lift (reject entry.isSome .temporaryEntry)
    preflightTemporaries hooks (index + 1) names

/-- A regular file of this user, closed to others, under one name. -/
def safeEntry (metadata : File) : Bool :=
  metadata.regular && metadata.mode == 0o600 && metadata.owned && metadata.links == 1

/-- The file behind a final name, looked at under the name and again behind its descriptor. -/
def openFinal (role : InitializationKeyRole) : LoadProcess ℕ := do
  let entry ← stat (.io (.open role)) (keyFinal role)
  let before ← lift (orError (.entry role) entry)
  lift (reject (!safeEntry before.2) (.entry role))
  let opened ← openFile (.io (.open role)) (keyFinal role)
  let file ← lift (orError (.entry role) opened)
  let metadata ← fstat (.io (.open role)) file
  lift (reject (!safeEntry metadata) (.entry role))
  return file

/-- One read of the key, and one that finds the end of the file. -/
def readMaterial (role : InitializationKeyRole) (file : ℕ) : LoadProcess (ByteVec 32) := do
  let bytes ← readAt (.io (.read role)) file 0 32
  let material ← lift (orError (.invalid role) (toVec? 32 bytes))
  let eof ← readAt (.io (.read role)) file 32 1
  lift (reject (!eof.isEmpty) (.invalid role))
  return material

/-- Opens the published file of a key and reads it.  A file that holds only zeros is refused. -/
def readFinal (hooks : LoadHooks) (role : InitializationKeyRole) : LoadProcess (ByteVec 32) := do
  let file ← aroundLoad hooks (.open role) (openFinal role)
  let material ← aroundLoad hooks (.read role) (readMaterial role file)
  aroundLoad hooks (.verify role)
    (lift (reject (material.toList.all (· == 0)) (.invalid role)))
  return material

/-- `load_with`: reads both published keys under the lock and refuses a pair of equal ones. -/
def loadWith (hooks : LoadHooks) : LoadProcess InitializationKeyPair := do
  aroundLoad hooks .policy (ask .policy fun _ => ())
  aroundLoad hooks .guard (ask .root fun _ => ())
  aroundLoad hooks .lock (ask .lock fun _ => ())
  aroundLoad hooks .openRoot (openPrivateRoot .directory)
  preflightTemporaries hooks 0 [keyTemporary .journalIntegrity, keyTemporary .portableReservation]
  let journalIntegrity ← readFinal hooks .journalIntegrity
  let portableReservation ← readFinal hooks .portableReservation
  lift (reject (journalIntegrity == portableReservation) .equal)
  return ⟨⟨journalIntegrity⟩, ⟨portableReservation⟩⟩

/-! ### The keys of a pair -/

theorem acquireKey_eq_ok {source : InitializationEntropySource} {role : InitializationKeyRole}
    {key : ByteVec 32} (h : acquireKey source role = .ok key) :
    source role = .ok (key, 32) ∧ key.toList.all (· == 0) = false := by
  obtain ⟨⟨bytes, count⟩, hsample, h⟩ := bind_eq_ok.1 h
  obtain ⟨hcount, h⟩ := reject_bind_eq_ok.1 h
  obtain ⟨hzero, h⟩ := reject_bind_eq_ok.1 h
  obtain rfl := pure_eq_ok.1 h
  obtain rfl : count = 32 := bne_eq_false_iff_eq.1 hcount
  refine ⟨?_, hzero⟩
  cases hsource : source role with
  | ok sample =>
    rw [hsource] at hsample
    rw [Except.ok.inj hsample]
  | error =>
    rw [hsource] at hsample
    cases hsample

/-- What is drawn is a complete sample for each role; no key is zero, and they differ. -/
theorem acquire_eq_ok {source : InitializationEntropySource} {pair : InitializationKeyPair}
    (h : acquireInitializationKeyPairWith source = .ok pair) :
    (∀ role, source role = .ok (pair.key role, 32) ∧ (pair.key role).toList.all (· == 0) = false) ∧
      pair.key .journalIntegrity ≠ pair.key .portableReservation := by
  obtain ⟨journalIntegrity, hjournal, h⟩ := bind_eq_ok.1 h
  obtain ⟨portableReservation, hportable, h⟩ := bind_eq_ok.1 h
  obtain ⟨hequal, h⟩ := reject_bind_eq_ok.1 h
  obtain rfl := pure_eq_ok.1 h
  refine ⟨fun role => ?_, beq_eq_false_iff_ne.1 hequal⟩
  cases role with
  | journalIntegrity => exact acquireKey_eq_ok hjournal
  | portableReservation => exact acquireKey_eq_ok hportable

theorem InitializationKeyPair.ext_key {pair pair' : InitializationKeyPair}
    (h : ∀ role, pair.key role = pair'.key role) : pair = pair' := by
  obtain ⟨⟨journal⟩, ⟨portable⟩⟩ := pair
  obtain ⟨⟨journal'⟩, ⟨portable'⟩⟩ := pair'
  obtain rfl : journal = journal' := h .journalIntegrity
  obtain rfl : portable = portable' := h .portableReservation
  rfl

/-! ### One key -/

theorem keyTemporary_ne_keyFinal (role role' : InitializationKeyRole) :
    keyTemporary role ≠ keyFinal role' := by
  cases role <;> cases role' <;> decide +kernel

theorem keyFinal_ne {role role' : InitializationKeyRole} (h : role ≠ role') :
    keyFinal role ≠ keyFinal role' := by
  cases role <;> cases role' <;> first | exact absurd rfl h | decide +kernel

/-- One of the four names is in use. -/
def Occupied (directory : Directory) : Prop :=
  ∃ role, directory.entries (keyTemporary role) ≠ none ∨ directory.entries (keyFinal role) ≠ none

/-- Besides the two names of a role, nothing has changed. -/
structure Apart (role : InitializationKeyRole) (base directory : Directory) : Prop where
  entries : ∀ name, name ≠ keyTemporary role → name ≠ keyFinal role →
    directory.entries name = base.entries name
  files : ∀ file < base.fresh, directory.files file = base.files file
  fresh : base.fresh ≤ directory.fresh
  wellFormed : directory.WellFormed

/-- The temporary of a role has a file of its own, and the final name is not in use. -/
structure Temporary (role : InitializationKeyRole) (base : Directory) (file : ℕ) (content : File)
    (directory : Directory) : Prop extends Apart role base directory where
  temporary : directory.entries (keyTemporary role) = some file
  final : directory.entries (keyFinal role) = none
  isNew : base.fresh ≤ file
  content : directory.files file = content

/-- The final name of a role has a file with the key, which is synced. -/
structure Placed (role : InitializationKeyRole) (base : Directory) (bytes : List UInt8)
    (directory : Directory) : Prop extends Apart role base directory where
  temporary : directory.entries (keyTemporary role) = none
  final : ∃ file, directory.entries (keyFinal role) = some file ∧
    directory.files file = .ofOwner bytes true

/-- What the barrier of one key can leave. -/
def KeyLeft (role : InitializationKeyRole) (base : Directory) (bytes : List UInt8)
    (directory : Directory) : Prop :=
  directory = base ∨
    (∃ file n synced, Temporary role base file (.ofOwner (bytes.take n) synced) directory) ∨
    Placed role base bytes directory

section Key

variable {role : InitializationKeyRole} {base directory : Directory} {file : ℕ} {content : File}
  {bytes : List UInt8} {synced : Bool} {hooks : PublicationHooks}

theorem temporary_create (h : base.WellFormed) (hfinal : base.entries (keyFinal role) = none) :
    Temporary role base base.fresh (.ofOwner [] false) (base.create (keyTemporary role)) := by
  refine ⟨⟨fun name hname _ => ?_, fun file hfile => ?_, Nat.le_succ _, h.create _⟩,
    base.create_entries_self _, ?_, Nat.le_refl _, base.create_files_self _⟩
  · exact Directory.setEntry_entries_of_ne _ hname _
  · exact Directory.setFile_files_of_ne _ (Nat.ne_of_lt hfile) _
  · exact (Directory.setEntry_entries_of_ne _ (keyTemporary_ne_keyFinal role role).symm _).trans hfinal

theorem Temporary.setFile (h : Temporary role base file content directory) (next : File) :
    Temporary role base file next (directory.setFile file next) := by
  refine ⟨⟨h.entries, fun other hother => ?_, h.fresh, h.wellFormed⟩, h.temporary, h.final, h.isNew,
    directory.setFile_files_self file next⟩
  have hne : other ≠ file := Nat.ne_of_lt (Nat.lt_of_lt_of_le hother h.isNew)
  exact (directory.setFile_files_of_ne hne next).trans (h.files other hother)

theorem Temporary.append {written : List UInt8}
    (h : Temporary role base file (.ofOwner written false) directory) (more : List UInt8) :
    Temporary role base file (.ofOwner (written ++ more) false) (directory.append file more) := by
  have hnext := h.setFile (.ofOwner (written ++ more) false)
  rw [Directory.append, h.content]
  exact hnext

theorem Temporary.syncFile (h : Temporary role base file (.ofOwner bytes synced) directory) :
    Temporary role base file (.ofOwner bytes true) (directory.syncFile file) := by
  have hnext := h.setFile (.ofOwner bytes true)
  rw [Directory.syncFile, h.content]
  exact hnext

theorem Temporary.rename (h : Temporary role base file (.ofOwner bytes true) directory) :
    Placed role base bytes (directory.rename (keyTemporary role) (keyFinal role)) := by
  refine ⟨⟨fun name htemporary hfinal => ?_, h.files, h.fresh, h.wellFormed.rename _ _⟩,
    Directory.setEntry_entries_self .., file, ?_, h.content⟩
  · rw [Directory.rename, Directory.setEntry_entries_of_ne _ htemporary,
      Directory.setEntry_entries_of_ne _ hfinal]
    exact h.entries name htemporary hfinal
  · exact (directory.rename_entries_target (keyTemporary_ne_keyFinal role role)).trans h.temporary

theorem Placed.sync (h : Placed role base bytes directory) :
    Placed role base bytes directory.sync :=
  ⟨⟨h.entries, h.files, h.fresh, h.wellFormed.sync⟩, h.temporary, h.final⟩

theorem Temporary.left {n : ℕ}
    (h : Temporary role base file (.ofOwner (bytes.take n) synced) directory) :
    KeyLeft role base bytes directory :=
  .inr (.inl ⟨file, n, synced, h⟩)

theorem Temporary.left_of_whole (h : Temporary role base file (.ofOwner bytes synced) directory) :
    KeyLeft role base bytes directory := by
  rw [← List.take_length (l := bytes)] at h
  exact h.left

theorem error_of_observe {step : Step} {phase : Phase} {e : PublicationError}
    (h : observe hooks step phase = .error e) : e = step.error := by
  unfold observe at h
  split at h
  · cases h
  · split at h
    · cases h
    · exact (Except.error.inj h).symm
  · exact (Except.error.inj h).symm

/-- The notifications add one error to a step, with what held before it or what holds after it. -/
theorem triple_around {α : Type} {step : Step} {x : PublicationProcess α}
    {pre : Directory → Prop} {post : Answer PublicationError α → Directory → Prop}
    (hbefore : ∀ directory, pre directory → post (.error step.error) directory)
    (hx : Triple pre x fun
      | .ok a => fun directory => post (.ok a) directory ∧ post (.error step.error) directory
      | .error e => post (.error e)
      | .stopped => post .stopped) :
    Triple pre (around hooks step x) post := by
  refine .bind (fun _ => pre) (.lift ?_ ?_) fun _ => .bind (fun a directory =>
    post (.ok a) directory ∧ post (.error step.error) directory) ?_ fun a => .bind
    (fun _ => post (.ok a)) (.lift ?_ ?_) fun _ => .pure ?_
  · exact fun _ _ _ h => h
  · exact fun _ herror directory h => error_of_observe herror ▸ hbefore directory h
  · refine hx.mono (fun _ h => h) fun answer _ h => ?_
    cases answer with
    | ok => exact h
    | error => exact h
    | stopped => exact h
  · exact fun _ _ _ h => h.1
  · exact fun _ herror _ h => error_of_observe herror ▸ h.2
  · exact fun _ h => h

/-- How a step of the barrier ends when it answers a value with `mid`. -/
def KeyAnswer {α : Type} (role : InitializationKeyRole) (base : Directory) (bytes : List UInt8)
    (mid : α → Directory → Prop) : Answer PublicationError α → Directory → Prop
  | .ok a, directory => mid a directory
  | .error _, directory => KeyLeft role base bytes directory
  | .stopped, directory => KeyLeft role base bytes directory

/-- The rule of composition, for steps of the barrier. -/
theorem triple_then {α β : Type} {pre : Directory → Prop} {x : PublicationProcess α}
    {f : α → PublicationProcess β} (mid : α → Directory → Prop) {last : β → Directory → Prop}
    (hx : Triple pre x (KeyAnswer role base bytes mid))
    (hf : ∀ a, Triple (mid a) (f a) (KeyAnswer role base bytes last)) :
    Triple pre (x >>= f) (KeyAnswer role base bytes last) := by
  refine .bind mid (hx.mono (fun _ h => h) fun answer _ h => ?_) hf
  cases answer with
  | ok => exact h
  | error => exact h
  | stopped => exact h

/-- A step between its notifications, when what it keeps and what it makes are both left over. -/
theorem triple_step {α : Type} {step : Step} {x : PublicationProcess α} {pre : Directory → Prop}
    {mid : α → Directory → Prop}
    (hpre : ∀ directory, pre directory → KeyLeft role base bytes directory)
    (hmid : ∀ a directory, mid a directory → KeyLeft role base bytes directory)
    (hx : Triple pre x (KeyAnswer role base bytes mid)) :
    Triple pre (around hooks step x) (KeyAnswer role base bytes mid) := by
  refine triple_around (fun directory h => hpre directory h) (hx.mono (fun _ h => h)
    fun answer directory h => ?_)
  cases answer with
  | ok a => exact ⟨h, hmid a directory h⟩
  | error => exact h
  | stopped => exact h

theorem triple_writeKey :
    Triple (Temporary role base file (.ofOwner [] false)) (writeKey hooks role file bytes)
      (KeyAnswer role base bytes fun _ => Temporary role base file (.ofOwner bytes false)) := by
  have hnil : ∀ directory, Temporary role base file (.ofOwner [] false) directory →
      KeyLeft role base bytes directory := by
    intro directory h
    rw [← List.take_zero (l := bytes)] at h
    exact h.left
  refine triple_then (fun _ => Temporary role base file (.ofOwner [] false)) (.lift ?_ ?_)
    fun directive => ?_
  · exact fun _ _ _ h => h
  · exact fun _ _ directory h => hnil directory h
  -- what the write transfers is an initial part of the key
  refine triple_then (fun written directory => ∃ n, written = min n bytes.length ∧
    Temporary role base file (.ofOwner (bytes.take n) false) directory) (triple_writeOnce ?_ ?_ ?_)
    fun written => ?_
  · exact fun directory h => hnil directory h
  · exact fun directory h => hnil directory h
  · intro directory count h
    generalize hlimit : (match directive with
      | .writeLimit count => min count bytes.length
      | _ => bytes.length) = limit
    refine ⟨min count limit, ?_, ?_⟩
    · rw [List.length_take]
      omega
    · have hnext := h.append ((bytes.take limit).take count)
      rw [List.take_take]
      rwa [List.nil_append, List.take_take] at hnext
  refine triple_then (fun _ => Temporary role base file (.ofOwner bytes false)) (.lift ?_ ?_)
    fun _ => triple_then (fun _ => Temporary role base file (.ofOwner bytes false)) (.lift ?_ ?_)
      fun _ => .pure fun _ h => h
  · rintro _ hwritten _ ⟨n, rfl, h⟩
    rw [reject_eq_ok, bne_eq_false_iff_eq] at hwritten
    rwa [List.take_of_length_le (by omega)] at h
  · exact fun _ _ _ ⟨n, _, h⟩ => h.left
  · exact fun _ _ _ h => h
  · exact fun _ _ _ h => h.left_of_whole

/-- **The barrier of one key**: whatever happens, there is nothing new, or a part of the key under
the temporary name, or the whole key under the final name. -/
theorem triple_publishKey (hbase : base.WellFormed) (hfinal : base.entries (keyFinal role) = none) :
    Triple (· = base) (publishKey hooks role bytes)
      (KeyAnswer role base bytes fun _ => Placed role base bytes) := by
  have hnil : ∀ file directory, Temporary role base file (.ofOwner [] false) directory →
      KeyLeft role base bytes directory := by
    intro file directory h
    rw [← List.take_zero (l := bytes)] at h
    exact h.left
  refine triple_then (fun file => Temporary role base file (.ofOwner [] false))
    (triple_step (fun _ h => .inl h) (fun file directory h => hnil file directory h)
      (triple_createFile ?_ ?_ ?_)) fun file => ?_
  · exact fun _ h => .inl h
  · exact fun _ h => .inl h
  · rintro _ rfl -
    exact temporary_create hbase hfinal
  refine triple_then _ triple_writeKey fun _ => ?_
  refine triple_then (fun _ => Temporary role base file (.ofOwner bytes true))
    (triple_step (fun _ h => h.left_of_whole) (fun _ _ h => h.left_of_whole)
      (triple_change ?_ ?_ ?_)) fun _ => ?_
  · exact fun _ h => h.left_of_whole
  · exact fun _ h => h.left_of_whole
  · exact fun _ h => h.syncFile
  refine triple_then (fun _ => Placed role base bytes) (triple_step (fun _ h => h.left_of_whole)
    (fun _ _ h => .inr (.inr h)) (triple_renameNoReplace ?_ ?_ ?_)) fun _ => ?_
  · exact fun _ h => h.left_of_whole
  · exact fun _ h => h.left_of_whole
  · exact fun _ h _ => h.rename
  refine triple_step (fun _ h => .inr (.inr h)) (fun _ _ h => .inr (.inr h))
    (triple_change ?_ ?_ ?_)
  · exact fun _ h => .inr (.inr h)
  · exact fun _ h => .inr (.inr h)
  · exact fun _ h => h.sync

end Key

/-! ### A whole publication -/

section Publication

variable {start directory : Directory} {hooks : PublicationHooks}
  {source : InitializationEntropySource}

theorem not_occupied_iff :
    ¬ Occupied start ↔ ∀ name ∈ keyNames, start.entries name = none := by
  simp only [Occupied, not_exists, not_or, not_not, keyNames, List.forall_mem_cons]
  constructor
  · intro h
    exact ⟨(h .journalIntegrity).1, (h .journalIntegrity).2, (h .portableReservation).1,
      (h .portableReservation).2, nofun⟩
  · rintro ⟨hj, hj', hp, hp', -⟩ role
    cases role with
    | journalIntegrity => exact ⟨hj, hj'⟩
    | portableReservation => exact ⟨hp, hp'⟩

/-- The errors before the keys are drawn. -/
def earlyErrors : List PublicationError := [.policy, .root, .lock, .directory, .existingEntry]

/-- How the steps before the keys are drawn end: they change nothing. -/
def EarlyAnswer {α : Type} (start : Directory) (holds : α → Prop) :
    Answer PublicationError α → Directory → Prop
  | .ok a, directory => directory = start ∧ holds a
  | .error e, directory => directory = start ∧ e ∈ earlyErrors
  | .stopped, directory => directory = start

theorem triple_early {α β : Type} {x : PublicationProcess α} {f : α → PublicationProcess β}
    (holds : α → Prop) {holds' : β → Prop} (hx : Triple (· = start) x (EarlyAnswer start holds))
    (hf : ∀ a, holds a → Triple (· = start) (f a) (EarlyAnswer start holds')) :
    Triple (· = start) (x >>= f) (EarlyAnswer start holds') := by
  refine .bind_start holds (hx.mono (fun _ h => h) fun answer _ h => ?_) hf
  cases answer with
  | ok => exact h
  | error => exact ⟨h.1, rfl, h.2⟩
  | stopped => exact ⟨h, rfl⟩

theorem triple_around_early {α : Type} {step : Step} {x : PublicationProcess α} {holds : α → Prop}
    (hstep : step.error ∈ earlyErrors) (hx : Triple (· = start) x (EarlyAnswer start holds)) :
    Triple (· = start) (around hooks step x) (EarlyAnswer start holds) := by
  refine triple_around (fun _ h => ⟨h, hstep⟩) (hx.mono (fun _ h => h) fun answer _ h => ?_)
  cases answer with
  | ok => exact ⟨h, h.1, hstep⟩
  | error => exact h
  | stopped => exact h

theorem triple_ask_early {α : Type} {e : PublicationError} (he : e ∈ earlyErrors)
    (answer : Directory → α) :
    Triple (· = start) (ask e answer) (EarlyAnswer start (· = answer start)) := by
  refine triple_ask ?_ ?_ ?_
  · exact fun _ h => h
  · exact fun _ h => ⟨h, he⟩
  · rintro _ rfl
    exact ⟨rfl, rfl⟩

theorem triple_reject_early {bad : Bool} {e : PublicationError} (he : e ∈ earlyErrors) :
    Triple (· = start) (lift (reject bad e)) (EarlyAnswer start fun _ => bad = false) := by
  refine .lift ?_ ?_
  · exact fun _ hgood _ h => ⟨h, reject_eq_ok.1 hgood⟩
  · intro e' herror _ h
    obtain ⟨-, rfl⟩ := reject_eq_error.1 herror
    exact ⟨h, he⟩

theorem triple_openPrivateRoot :
    Triple (· = start) (openPrivateRoot (.directory : PublicationError))
      (EarlyAnswer start fun _ => True) := by
  have hdirectory : PublicationError.directory ∈ earlyErrors := by decide
  refine triple_early _ (triple_ask_early hdirectory _) fun _ _ => triple_early _
    (triple_ask_early hdirectory _) fun _ _ => triple_early _ (triple_ask_early hdirectory _)
      fun opened _ => triple_early _ (triple_ask_early hdirectory _) fun _ _ => ?_
  refine (triple_reject_early hdirectory).mono (fun _ h => h) fun answer _ h => ?_
  cases answer with
  | ok => exact ⟨h.1, trivial⟩
  | error => exact h
  | stopped => exact h

theorem triple_preflightNames (index : UInt8) (names : List String) :
    Triple (· = start) (preflightNames hooks index names)
      (EarlyAnswer start fun _ => ∀ name ∈ names, start.entries name = none) := by
  induction names generalizing index with
  | nil => exact .pure fun _ h => ⟨h, nofun⟩
  | cons name names ih =>
    refine triple_early (fun _ => start.entries name = none) (triple_around_early ?_ ?_)
      fun _ hname => (ih (index + 1)).mono (fun _ h => h) fun answer _ h => ?_
    · show PublicationError.directory ∈ earlyErrors
      decide
    · refine triple_early _ (triple_ask_early (by decide) _) fun entry hentry =>
        (triple_reject_early (by decide)).mono (fun _ h => h) fun answer _ h => ?_
      cases answer with
      | ok =>
        refine ⟨h.1, ?_⟩
        have hnone := h.2
        rwa [hentry, Option.isSome_map, Option.isSome_eq_false_iff,
          Option.isNone_iff_eq_none] at hnone
      | error => exact h
      | stopped => exact h
    · cases answer with
      | ok => exact ⟨h.1, List.forall_mem_cons.2 ⟨hname, h.2⟩⟩
      | error => exact h
      | stopped => exact h

/-- The keys are drawn only where none of the four names is in use. -/
theorem triple_preparePublication :
    Triple (· = start) (preparePublication hooks) (EarlyAnswer start fun _ => ¬ Occupied start) := by
  have hask : ∀ step e, Step.error step ∈ earlyErrors → e ∈ earlyErrors →
      Triple (· = start) (around hooks step (ask e fun _ => ()))
        (EarlyAnswer start (· = ())) := fun step e hstep he =>
    triple_around_early hstep (triple_ask_early he _)
  refine triple_early _ (hask .policy .policy (by decide) (by decide)) fun _ _ =>
    triple_early _ (hask .guard .root (by decide) (by decide)) fun _ _ =>
      triple_early _ (hask .lock .lock (by decide) (by decide)) fun _ _ =>
        triple_early _ (triple_around_early (by decide) triple_openPrivateRoot) fun _ _ => ?_
  rw [not_occupied_iff]
  exact triple_preflightNames 0 keyNames

/-- What a publication of these keys can leave. -/
def PublicationLeft (start : Directory) (pair : InitializationKeyPair) (directory : Directory) :
    Prop :=
  KeyLeft .journalIntegrity start (pair.key .journalIntegrity).toList directory ∨
  ∃ first, Placed .journalIntegrity start (pair.key .journalIntegrity).toList first ∧
    KeyLeft .portableReservation first (pair.key .portableReservation).toList directory

/-- Both keys have come under their final names. -/
def BothPlaced (start : Directory) (pair : InitializationKeyPair) (directory : Directory) : Prop :=
  ∃ first, Placed .journalIntegrity start (pair.key .journalIntegrity).toList first ∧
    Placed .portableReservation first (pair.key .portableReservation).toList directory

/-- How a publication ends. -/
def PublicationAnswer (start : Directory) (source : InitializationEntropySource) :
    Answer PublicationError Unit → Directory → Prop
  | .ok _, directory => ¬ Occupied start ∧ ∃ pair,
    acquireInitializationKeyPairWith source = .ok pair ∧ BothPlaced start pair directory
  | .error e, directory => (directory = start ∧ e ∈ earlyErrors) ∨ ¬ Occupied start ∧
    (directory = start ∨ ∃ pair,
      acquireInitializationKeyPairWith source = .ok pair ∧ PublicationLeft start pair directory)
  | .stopped, directory => directory = start ∨ ¬ Occupied start ∧ ∃ pair,
    acquireInitializationKeyPairWith source = .ok pair ∧ PublicationLeft start pair directory

/-- **What a publication leaves behind**, whatever its hooks and calls do and wherever it stops. -/
theorem publishWith_spec (hstart : start.WellFormed) :
    Triple (· = start) (publishWith source hooks) (PublicationAnswer start source) := by
  refine .bind (fun _ directory => directory = start ∧ ¬ Occupied start)
    (triple_preparePublication.mono (fun _ h => h) fun answer _ h => ?_) fun _ => ?_
  · cases answer with
    | ok => exact h
    | error => exact .inl h
    | stopped => exact .inl h
  refine .bind (fun pair directory => (directory = start ∧ ¬ Occupied start) ∧
    acquireInitializationKeyPairWith source = .ok pair) (.mapError (.lift ?_ ?_)) fun pair => ?_
  · exact fun pair hpair _ h => ⟨h, hpair⟩
  · exact fun _ _ _ h => .inr ⟨h.2, .inl h.1⟩
  refine .bind (fun _ directory => (¬ Occupied start ∧
    acquireInitializationKeyPairWith source = .ok pair) ∧
      Placed .journalIntegrity start (pair.key .journalIntegrity).toList directory) ?_ fun _ => ?_
  · refine .of_start ?_
    rintro _ ⟨⟨rfl, hfree⟩, hpair⟩
    have hfinal := not_occupied_iff.1 hfree (keyFinal .journalIntegrity) (by simp [keyNames])
    refine (triple_publishKey hstart hfinal).mono (fun _ h => h) fun answer _ h => ?_
    cases answer with
    | ok => exact ⟨⟨hfree, hpair⟩, h⟩
    | error => exact .inr ⟨hfree, .inr ⟨pair, hpair, .inl h⟩⟩
    | stopped => exact .inr ⟨hfree, pair, hpair, .inl h⟩
  · refine .of_start ?_
    rintro first ⟨⟨hfree, hpair⟩, hplaced⟩
    have hfinal : first.entries (keyFinal .portableReservation) = none := by
      rw [hplaced.entries _ (keyTemporary_ne_keyFinal _ _).symm (keyFinal_ne (by decide))]
      exact not_occupied_iff.1 hfree (keyFinal .portableReservation) (by simp [keyNames])
    refine (triple_publishKey hplaced.wellFormed hfinal).mono (fun _ h => h) fun answer _ h => ?_
    cases answer with
    | ok => exact ⟨hfree, pair, hpair, first, hplaced, h⟩
    | error => exact .inr ⟨hfree, .inr ⟨pair, hpair, .inr ⟨first, hplaced, h⟩⟩⟩
    | stopped => exact .inr ⟨hfree, pair, hpair, .inr ⟨first, hplaced, h⟩⟩

end Publication

/-! ### A load -/

/-- The directory has this pair under the final names, and no temporary. -/
structure Stored (directory : Directory) (pair : InitializationKeyPair) : Prop where
  temporary : ∀ role, directory.entries (keyTemporary role) = none
  final : ∀ role, ∃ file, directory.entries (keyFinal role) = some file ∧
    (directory.files file).bytes = (pair.key role).toList
  nonzero : ∀ role, (pair.key role).toList.all (· == 0) = false
  differ : pair.key .journalIntegrity ≠ pair.key .portableReservation

section Load

variable {start directory : Directory} {hooks : LoadHooks} {role : InitializationKeyRole}

/-- How the steps of a load end: they change nothing. -/
def LoadAnswer {α : Type} (start : Directory) (holds : α → Prop) :
    Answer LoadError α → Directory → Prop
  | .ok a, directory => directory = start ∧ holds a
  | .error _, directory => directory = start
  | .stopped, directory => directory = start

theorem triple_load {α β : Type} {x : LoadProcess α} {f : α → LoadProcess β}
    (holds : α → Prop) {holds' : β → Prop} (hx : Triple (· = start) x (LoadAnswer start holds))
    (hf : ∀ a, holds a → Triple (· = start) (f a) (LoadAnswer start holds')) :
    Triple (· = start) (x >>= f) (LoadAnswer start holds') := by
  refine .bind_start holds (hx.mono (fun _ h => h) fun answer _ h => ?_) hf
  cases answer with
  | ok => exact h
  | error => exact ⟨h, rfl⟩
  | stopped => exact ⟨h, rfl⟩

theorem triple_lift_load {α : Type} {x : Except LoadError α} {holds : α → Prop}
    (h : ∀ a, x = .ok a → holds a) : Triple (· = start) (lift x) (LoadAnswer start holds) :=
  .lift (fun a ha _ hstart => ⟨hstart, h a ha⟩) fun _ _ _ hstart => hstart

theorem triple_pure_load {α : Type} {a : α} {holds : α → Prop} (h : holds a) :
    Triple (· = start) (pure a : LoadProcess α) (LoadAnswer start holds) :=
  .pure fun _ hstart => ⟨hstart, h⟩

theorem triple_aroundLoad {α : Type} {step : LoadStep} {x : LoadProcess α} {holds : α → Prop}
    (hx : Triple (· = start) x (LoadAnswer start holds)) :
    Triple (· = start) (aroundLoad hooks step x) (LoadAnswer start holds) :=
  triple_load (fun _ => True) (triple_lift_load fun _ _ => trivial) fun _ _ =>
    triple_load holds hx fun _ ha =>
      triple_load (fun _ => True) (triple_lift_load fun _ _ => trivial) fun _ _ =>
        triple_pure_load ha

theorem triple_ask_load {α : Type} (e : LoadError) (answer : Directory → α) :
    Triple (· = start) (ask e answer) (LoadAnswer start (· = answer start)) := by
  refine triple_ask ?_ ?_ ?_
  · exact fun _ h => h
  · exact fun _ h => h
  · rintro _ rfl
    exact ⟨rfl, rfl⟩

theorem triple_openPrivateRoot_load :
    Triple (· = start) (openPrivateRoot (.directory : LoadError))
      (LoadAnswer start fun _ => True) :=
  triple_load _ (triple_ask_load _ _) fun _ _ => triple_load _ (triple_ask_load _ _) fun _ _ =>
    triple_load _ (triple_ask_load _ _) fun _ _ => triple_load _ (triple_ask_load _ _) fun _ _ =>
      triple_lift_load fun _ _ => trivial

theorem triple_preflightTemporaries (index : UInt8) (names : List String) :
    Triple (· = start) (preflightTemporaries hooks index names)
      (LoadAnswer start fun _ => ∀ name ∈ names, start.entries name = none) := by
  induction names generalizing index with
  | nil => exact triple_pure_load nofun
  | cons name names ih =>
    refine triple_load (fun _ => start.entries name = none) (triple_aroundLoad ?_) fun _ hname =>
      (ih (index + 1)).mono (fun _ h => h) fun answer _ h => ?_
    · refine triple_load _ (triple_ask_load _ _) fun entry hentry => triple_lift_load fun _ hnone => ?_
      rwa [reject_eq_ok, hentry, Option.isSome_map, Option.isSome_eq_false_iff,
        Option.isNone_iff_eq_none] at hnone
    · cases answer with
      | ok => exact ⟨h.1, List.forall_mem_cons.2 ⟨hname, h.2⟩⟩
      | error => exact h
      | stopped => exact h

theorem triple_openFinal : Triple (· = start) (openFinal role)
    (LoadAnswer start fun file => start.entries (keyFinal role) = some file) := by
  refine triple_load _ (triple_ask_load _ _) fun _ _ => triple_load (fun _ => True)
    (triple_lift_load fun _ _ => trivial) fun _ _ => triple_load (fun _ => True)
      (triple_lift_load fun _ _ => trivial) fun _ _ => triple_load _ (triple_ask_load _ _)
        fun opened hopened => triple_load (fun file => start.entries (keyFinal role) = some file)
          (triple_lift_load fun file hfile => ?_) fun file hfile => triple_load _
            (triple_ask_load _ _) fun _ _ => triple_load (fun _ => True)
              (triple_lift_load fun _ _ => trivial) fun _ _ => triple_pure_load hfile
  rw [orError_eq_ok, hopened] at hfile
  exact hfile

/-- What one read and the look for the end find is the whole file. -/
theorem triple_readMaterial (file : ℕ) : Triple (· = start) (readMaterial role file)
    (LoadAnswer start fun material => (start.files file).bytes = material.toList) := by
  have hread : ∀ offset buffer, Triple (· = start) (readAt (.io (.read role)) file offset buffer)
      (LoadAnswer start fun bytes =>
        ∃ count, bytes = (start.files file).chunk offset buffer count) := by
    intro offset buffer
    refine triple_readAt (fun _ h => h) (fun _ h => h) ?_
    rintro _ count rfl
    exact ⟨rfl, count, rfl⟩
  refine triple_load _ (hread 0 32) fun bytes hbytes => triple_load (fun material : ByteVec 32 =>
    material.toList = bytes) (triple_lift_load fun material hmaterial => ?_) fun material hmaterial =>
      triple_load _ (hread 32 1) fun eof heof => triple_load (fun _ => eof = [])
        (triple_lift_load fun _ hend => ?_) fun _ hend => triple_pure_load ?_
  · exact toVec?_eq_some.1 (orError_eq_ok.1 hmaterial)
  · rwa [reject_eq_ok, Bool.not_eq_false', List.isEmpty_iff] at hend
  · obtain ⟨count, hcount⟩ := hbytes
    obtain ⟨count', hcount'⟩ := heof
    have hlength : (start.files file).bytes.length ≤ 32 :=
      File.chunk_eq_nil.1 (hcount'.symm.trans hend)
    have hwhole : bytes.length = 32 := by
      rw [← hmaterial, List.Vector.toList_length]
    rw [File.chunk, List.drop_zero] at hcount
    rw [hcount, List.length_take] at hwhole
    rw [hmaterial, hcount, List.take_of_length_le (by omega)]

theorem triple_readFinal : Triple (· = start) (readFinal hooks role)
    (LoadAnswer start fun material => material.toList.all (· == 0) = false ∧
      ∃ file, start.entries (keyFinal role) = some file ∧
        (start.files file).bytes = material.toList) := by
  refine triple_load _ (triple_aroundLoad triple_openFinal) fun file hfile => triple_load _
    (triple_aroundLoad (triple_readMaterial file)) fun material hmaterial => triple_load
      (fun _ => material.toList.all (· == 0) = false) (triple_aroundLoad (triple_lift_load
        fun _ hzero => reject_eq_ok.1 hzero)) fun _ hzero => triple_pure_load ?_
  exact ⟨hzero, file, hfile, hmaterial⟩

/-- **What a load answers** is the pair that the directory has; it changes nothing. -/
theorem loadWith_spec : Triple (· = start) (loadWith hooks) (LoadAnswer start (Stored start)) := by
  refine triple_load _ (triple_aroundLoad (triple_ask_load _ _)) fun _ _ => triple_load _
    (triple_aroundLoad (triple_ask_load _ _)) fun _ _ => triple_load _
      (triple_aroundLoad (triple_ask_load _ _)) fun _ _ => triple_load _
        (triple_aroundLoad triple_openPrivateRoot_load) fun _ _ => triple_load _
          (triple_preflightTemporaries 0 _) fun _ htemporary => ?_
  refine triple_load _ triple_readFinal fun journalIntegrity hjournal => triple_load _
    triple_readFinal fun portableReservation hportable => triple_load
      (fun _ => journalIntegrity ≠ portableReservation) (triple_lift_load fun _ hequal => ?_)
        fun _ hequal => triple_pure_load ⟨fun role => ?_, fun role => ?_, fun role => ?_, hequal⟩
  · exact beq_eq_false_iff_ne.1 (reject_eq_ok.1 hequal)
  · cases role with
    | journalIntegrity => exact htemporary _ (by simp)
    | portableReservation => exact htemporary _ (by simp)
  · cases role with
    | journalIntegrity => exact hjournal.2
    | portableReservation => exact hportable.2
  · cases role with
    | journalIntegrity => exact hjournal.1
    | portableReservation => exact hportable.1

theorem Stored.occupied {pair : InitializationKeyPair} (h : Stored start pair) :
    Occupied start := by
  obtain ⟨file, hfile, -⟩ := h.final .journalIntegrity
  exact ⟨.journalIntegrity, .inr (by rw [hfile]; nofun)⟩

theorem Stored.unique {pair pair' : InitializationKeyPair} (h : Stored start pair)
    (h' : Stored start pair') : pair = pair' := by
  refine InitializationKeyPair.ext_key fun role => ?_
  obtain ⟨file, hfile, hbytes⟩ := h.final role
  obtain ⟨file', hfile', hbytes'⟩ := h'.final role
  obtain rfl := Option.some.inj (hfile.symm.trans hfile')
  exact List.Vector.toList_injective (hbytes.symm.trans hbytes')

end Load

/-! ### A directory that is in use -/

section Occupied

variable {start directory : Directory} {hooks : PublicationHooks}
  {source : InitializationEntropySource}

/-- A publication changes nothing where a name is in use. -/
theorem publishWith_occupied (hstart : Occupied start) (source : InitializationEntropySource)
    (hooks : PublicationHooks) (outcomes : List Outcome) :
    (publishWith source hooks start outcomes).2.1 = start ∧
      ((publishWith source hooks start outcomes).1 = .stopped ∨
        ∃ e ∈ earlyErrors, (publishWith source hooks start outcomes).1 = .error e) := by
  have hpublish : Triple (· = start) (publishWith source hooks) fun answer directory =>
      directory = start ∧ (answer = .stopped ∨ ∃ e ∈ earlyErrors, answer = .error e) := by
    refine .bind (fun _ _ => False) (triple_preparePublication.mono (fun _ h => h)
      fun answer _ h => ?_) fun _ _ _ h => h.elim
    cases answer with
    | ok => exact h.2 hstart
    | error e => exact ⟨h.1, .inr ⟨e, h.2, rfl⟩⟩
    | stopped => exact ⟨h, .inl rfl⟩
  exact hpublish start outcomes rfl

/-- The steps before the keys are drawn. -/
def Step.isEarly : Step → Bool
  | policy | guard | lock | openRoot | preflight _ => true
  | _ => false

/-- The hooks let these steps go on. -/
def Quiet (hooks : PublicationHooks) : Prop :=
  ∀ step phase, step.isEarly = true → hooks step phase = .continue

theorem Quiet.observe (h : Quiet hooks) {step : Step} (hstep : step.isEarly = true)
    (phase : Phase) :
    observe hooks step phase = .ok .continue := by
  rw [Journal.observe, h step phase hstep]

theorem Quiet.answers_around {α : Type} {step : Step} {x : PublicationProcess α} {calls : ℕ} {a : α}
    (h : Quiet hooks) (hstep : step.isEarly = true) (hx : Answers x start calls a) :
    Answers (around hooks step x) start (0 + (calls + (0 + 0))) a :=
  (answers_lift (h.observe hstep _)).bind (hx.bind ((answers_lift (h.observe hstep _)).bind
    (answers_pure a)))

theorem Quiet.refuses_around {α : Type} {step : Step} {x : PublicationProcess α} {calls : ℕ}
    {e : PublicationError} (h : Quiet hooks) (hstep : step.isEarly = true)
    (hx : Refuses x start calls e) : Refuses (around hooks step x) start (0 + calls) e :=
  (answers_lift (h.observe hstep _)).refuses (hx.bind _)

theorem refuses_preflightNames (h : Quiet hooks) (index : UInt8) {names : List String}
    (hused : ∃ name ∈ names, start.entries name ≠ none) :
    ∃ calls, Refuses (preflightNames hooks index names) start calls .existingEntry := by
  induction names generalizing index with
  | nil =>
    obtain ⟨_, hmem, -⟩ := hused
    cases hmem
  | cons name names ih =>
    have hstat : Answers (stat (.directory : PublicationError) name) start 1
        ((start.entries name).map fun file => (file, start.files file)) := answers_ask _ _
    cases hentry : start.entries name with
    | some file =>
      have hlook : Refuses (do
          let entry ← stat (.directory : PublicationError) name
          lift (reject entry.isSome .existingEntry)) start (1 + 0) .existingEntry := by
        refine hstat.refuses (refuses_lift ?_)
        rw [hentry]
        rfl
      exact ⟨_, (h.refuses_around rfl hlook).bind _⟩
    | none =>
      have hlook : Answers (do
          let entry ← stat (.directory : PublicationError) name
          lift (reject entry.isSome .existingEntry)) start (1 + 0) () := by
        refine hstat.bind (answers_lift ?_)
        rw [hentry]
        rfl
      obtain ⟨other, hmem, hother⟩ := hused
      have hrest : other ∈ names := (List.mem_cons.1 hmem).resolve_left fun hsame =>
        hother (hsame ▸ hentry)
      obtain ⟨calls, hrefuses⟩ := ih (index + 1) ⟨other, hrest, hother⟩
      exact ⟨_, (h.answers_around rfl hlook).refuses hrefuses⟩

/-- When nothing else fails, the error is that an entry exists. -/
theorem refuses_publishWith (hstart : Occupied start) (hmode : start.mode = 0o700)
    (howned : start.owned = true) (hquiet : Quiet hooks) (source : InitializationEntropySource) :
    ∃ calls, Refuses (publishWith source hooks) start calls .existingEntry := by
  have hused : ∃ name ∈ keyNames, start.entries name ≠ none := by
    by_contra hnone
    push Not at hnone
    exact not_occupied_iff.2 hnone hstart
  obtain ⟨calls, hpreflight⟩ := refuses_preflightNames hquiet 0 hused
  have hroot : reject (start.mode != 0o700 || !start.owned) (.directory : PublicationError) =
      .ok () := by
    rw [hmode, howned]
    rfl
  have hopen : Answers (openPrivateRoot (.directory : PublicationError)) start
      (1 + (1 + (1 + (1 + 0)))) () :=
    (answers_ask _ _).bind ((answers_ask _ _).bind ((answers_ask _ _).bind ((answers_ask _ _).bind
      (answers_lift hroot))))
  have hprepare : ∃ calls, Refuses (preparePublication hooks) start calls .existingEntry :=
    ⟨_, (hquiet.answers_around rfl (answers_ask _ start)).refuses
      ((hquiet.answers_around rfl (answers_ask _ start)).refuses
        ((hquiet.answers_around rfl (answers_ask _ start)).refuses
          ((hquiet.answers_around rfl hopen).refuses hpreflight)))⟩
  obtain ⟨calls', hprepare⟩ := hprepare
  exact ⟨calls', hprepare.bind _⟩

theorem Temporary.occupied {role : InitializationKeyRole} {file : ℕ} {content : File}
    (h : Temporary role start file content directory) : Occupied directory :=
  ⟨role, .inl (by rw [h.temporary]; nofun)⟩

theorem Placed.occupied {role : InitializationKeyRole} {bytes : List UInt8}
    (h : Placed role start bytes directory) : Occupied directory := by
  obtain ⟨file, hfile, -⟩ := h.final
  exact ⟨role, .inr (by rw [hfile]; nofun)⟩

theorem KeyLeft.occupied {role : InitializationKeyRole} {bytes : List UInt8}
    (h : KeyLeft role start bytes directory) : directory = start ∨ Occupied directory := by
  rcases h with hsame | ⟨_, _, _, htemporary⟩ | hplaced
  · exact .inl hsame
  · exact .inr htemporary.occupied
  · exact .inr hplaced.occupied

theorem PublicationLeft.occupied {pair : InitializationKeyPair}
    (h : PublicationLeft start pair directory) : directory = start ∨ Occupied directory := by
  rcases h with hfirst | ⟨first, hplaced, hsecond⟩
  · exact hfirst.occupied
  · rcases hsecond.occupied with rfl | hoccupied
    · exact .inr hplaced.occupied
    · exact .inr hoccupied

/-- A publication leaves the directory as it was, or it has begun to keep its keys there. -/
theorem publishWith_left (hstart : start.WellFormed) (source : InitializationEntropySource)
    (hooks : PublicationHooks) (outcomes : List Outcome) :
    (publishWith source hooks start outcomes).2.1 = start ∨ ¬ Occupied start ∧
      ∃ pair, acquireInitializationKeyPairWith source = .ok pair ∧
        PublicationLeft start pair (publishWith source hooks start outcomes).2.1 := by
  have hanswer : PublicationAnswer start source _ _ :=
    @publishWith_spec start hooks source hstart start outcomes rfl
  generalize publishWith source hooks start outcomes = run at hanswer ⊢
  obtain ⟨answer, left, _⟩ := run
  cases answer with
  | ok =>
    obtain ⟨hfree, pair, hpair, first, hplaced, hlast⟩ := hanswer
    exact .inr ⟨hfree, pair, hpair, .inr ⟨first, hplaced, .inr (.inr hlast)⟩⟩
  | error =>
    rcases hanswer with ⟨hsame, -⟩ | ⟨hfree, hsame | hleft⟩
    · exact .inl hsame
    · exact .inl hsame
    · exact .inr ⟨hfree, hleft⟩
  | stopped => exact hanswer

/-- Where all names are free, a final name that has come into use has the whole key. -/
theorem PublicationLeft.final {pair : InitializationKeyPair} {role : InitializationKeyRole}
    {file : ℕ}
    (h : PublicationLeft start pair directory) (hstart : start.WellFormed)
    (hfree : ¬ Occupied start)
    (hfile : directory.entries (keyFinal role) = some file) :
    directory.files file = .ofOwner (pair.key role).toList true := by
  have hnone : ∀ role, start.entries (keyFinal role) = none := by
    intro role
    by_contra hused
    exact hfree ⟨role, .inr hused⟩
  -- what the barrier of one key leaves under each final name
  have hkey : ∀ {base left : Directory} {role' : InitializationKeyRole} {bytes : List UInt8},
      KeyLeft role' base bytes left → base.WellFormed →
      left.entries (keyFinal role) = some file →
      (base.entries (keyFinal role) = some file ∧ left.files file = base.files file) ∨
        role = role' ∧ left.files file = .ofOwner bytes true := by
    intro base left role' bytes hleft hbase hentry
    have hapart : Apart role' base left → role ≠ role' →
        base.entries (keyFinal role) = some file ∧ left.files file = base.files file := by
      intro hapart hne
      have hsame := hapart.entries (keyFinal role) (keyTemporary_ne_keyFinal _ _).symm
        (keyFinal_ne hne)
      exact ⟨hsame.symm.trans hentry, hapart.files file (hbase _ _ (.inl (hsame.symm.trans hentry)))⟩
    rcases hleft with rfl | ⟨_, _, _, htemporary⟩ | hplaced
    · exact .inl ⟨hentry, rfl⟩
    · by_cases hrole : role = role'
      · subst hrole
        rw [htemporary.final] at hentry
        cases hentry
      · exact .inl (hapart htemporary.toApart hrole)
    · by_cases hrole : role = role'
      · subst hrole
        obtain ⟨file', hfile', hcontent⟩ := hplaced.final
        obtain rfl := Option.some.inj (hfile'.symm.trans hentry)
        exact .inr ⟨rfl, hcontent⟩
      · exact .inl (hapart hplaced.toApart hrole)
  rcases h with hfirst | ⟨first, hplaced, hsecond⟩
  · rcases hkey hfirst hstart hfile with ⟨hold, -⟩ | ⟨rfl, hcontent⟩
    · rw [hnone] at hold
      cases hold
    · exact hcontent
  · rcases hkey hsecond hplaced.wellFormed hfile with ⟨hold, hsame⟩ | ⟨rfl, hcontent⟩
    · rcases hkey (.inr (.inr hplaced)) hstart hold with ⟨hold', -⟩ | ⟨rfl, hcontent⟩
      · rw [hnone] at hold'
        cases hold'
      · exact hsame.trans hcontent
    · exact hcontent

/-- Where all names are free, only a publication that has placed both keys makes a load answer, and
the load answers its keys. -/
theorem PublicationLeft.stored {pair pair' : InitializationKeyPair}
    (h : PublicationLeft start pair directory) (hstart : start.WellFormed)
    (hfree : ¬ Occupied start)
    (hstored : Stored directory pair') : BothPlaced start pair directory ∧ pair' = pair := by
  have hpair : pair' = pair := by
    refine InitializationKeyPair.ext_key fun role => ?_
    obtain ⟨file, hfile, hbytes⟩ := hstored.final role
    rw [h.final hstart hfree hfile] at hbytes
    exact List.Vector.toList_injective hbytes.symm
  refine ⟨?_, hpair⟩
  have hnoTemporary : ∀ {role file content base}, ¬ Temporary role base file content directory := by
    intro role file content base htemporary
    have hnone := hstored.temporary role
    rw [htemporary.temporary] at hnone
    cases hnone
  have hnotFirst : ¬ Placed .journalIntegrity start (pair.key .journalIntegrity).toList directory := by
    intro hplaced
    obtain ⟨file, hfile, -⟩ := hstored.final .portableReservation
    rw [hplaced.entries _ (keyTemporary_ne_keyFinal _ _).symm (keyFinal_ne (by decide))] at hfile
    exact hfree ⟨.portableReservation, .inr (by rw [hfile]; nofun)⟩
  rcases h with (rfl | ⟨_, _, _, htemporary⟩ | hplaced) | ⟨first, hplaced, hsecond⟩
  · exact absurd hstored.occupied hfree
  · exact absurd htemporary hnoTemporary
  · exact absurd hplaced hnotFirst
  · rcases hsecond with rfl | ⟨_, _, _, htemporary⟩ | hlast
    · exact absurd hplaced hnotFirst
    · exact absurd htemporary hnoTemporary
    · exact ⟨first, hplaced, hlast⟩

end Occupied

/-! ### Any sequence of publications and loads -/

/-- What a program does with the keys of a directory. -/
inductive Access
  | publish (source : InitializationEntropySource) (hooks : PublicationHooks)
    (outcomes : List Outcome)
  | load (hooks : LoadHooks) (outcomes : List Outcome)

/-- How an access ended. -/
inductive Report
  | published (answer : Answer PublicationError Unit)
  | loaded (answer : Answer LoadError InitializationKeyPair)
  deriving DecidableEq

/-- One access: its report, and the directory that it leaves. -/
def Access.run : Access → Directory → Report × Directory
  | publish source hooks outcomes, directory =>
    (.published (publishWith source hooks directory outcomes).1,
      (publishWith source hooks directory outcomes).2.1)
  | load hooks outcomes, directory =>
    (.loaded (loadWith hooks directory outcomes).1, (loadWith hooks directory outcomes).2.1)

/-- Accesses one after the other, with their reports. -/
def runAccesses : List Access → Directory → List Report × Directory
  | [], directory => ([], directory)
  | access :: rest, directory =>
    ((access.run directory).1 :: (runAccesses rest (access.run directory).2).1,
      (runAccesses rest (access.run directory).2).2)

section Accesses

variable {start directory : Directory}

theorem runAccesses_append (before after : List Access) (directory : Directory) :
    (runAccesses (before ++ after) directory).2 =
      (runAccesses after (runAccesses before directory).2).2 := by
  induction before generalizing directory with
  | nil => rfl
  | cons access before ih => exact ih (access.run directory).2

theorem loadWith_left (hooks : LoadHooks) (outcomes : List Outcome) (directory : Directory) :
    (loadWith hooks directory outcomes).2.1 = directory := by
  have hanswer : LoadAnswer directory (Stored directory) _ _ :=
    @loadWith_spec directory hooks directory outcomes rfl
  generalize loadWith hooks directory outcomes = run at hanswer ⊢
  obtain ⟨answer, left, _⟩ := run
  cases answer with
  | ok => exact hanswer.1
  | error => exact hanswer
  | stopped => exact hanswer

theorem stored_of_loadWith {hooks : LoadHooks} {outcomes : List Outcome}
    {pair : InitializationKeyPair} (h : (loadWith hooks directory outcomes).1 = .ok pair) :
    Stored directory pair := by
  have hanswer : LoadAnswer directory (Stored directory) _ _ :=
    @loadWith_spec directory hooks directory outcomes rfl
  rw [h] at hanswer
  exact hanswer.2

/-- Nothing changes any more once a name is in use, and no publication succeeds. -/
theorem runAccesses_occupied (h : Occupied directory) (accesses : List Access) :
    (runAccesses accesses directory).2 = directory ∧
      .published (.ok ()) ∉ (runAccesses accesses directory).1 := by
  induction accesses with
  | nil => exact ⟨rfl, List.not_mem_nil⟩
  | cons access rest ih =>
    have hstep : (access.run directory).2 = directory ∧
        (access.run directory).1 ≠ .published (.ok ()) := by
      cases access with
      | publish source hooks outcomes =>
        obtain ⟨hsame, hstopped | ⟨e, -, herror⟩⟩ := publishWith_occupied h source hooks outcomes
        · exact ⟨hsame, by simp [Access.run, hstopped]⟩
        · exact ⟨hsame, by simp [Access.run, herror]⟩
      | load hooks outcomes => exact ⟨loadWith_left hooks outcomes directory, nofun⟩
    rw [runAccesses, hstep.1]
    exact ⟨ih.1, List.not_mem_cons_of_ne_of_not_mem hstep.2.symm ih.2⟩

/-- The directory stays as it is until one publication begins to keep its keys there. -/
theorem runAccesses_left (hstart : start.WellFormed) (accesses : List Access) :
    (runAccesses accesses start).2 = start ∨ ¬ Occupied start ∧
      ∃ source hooks outcomes pair, .publish source hooks outcomes ∈ accesses ∧
        acquireInitializationKeyPairWith source = .ok pair ∧
          PublicationLeft start pair (runAccesses accesses start).2 := by
  induction accesses with
  | nil => exact .inl rfl
  | cons access rest ih =>
    have hrest : (access.run start).2 = start →
        (runAccesses (access :: rest) start).2 = start ∨ ¬ Occupied start ∧
          ∃ source hooks outcomes pair, .publish source hooks outcomes ∈ access :: rest ∧
            acquireInitializationKeyPairWith source = .ok pair ∧
              PublicationLeft start pair (runAccesses (access :: rest) start).2 := by
      intro hsame
      rw [runAccesses, hsame]
      exact ih.imp_right fun ⟨hfree, source, hooks, outcomes, pair, hmem, hleft⟩ =>
        ⟨hfree, source, hooks, outcomes, pair, List.mem_cons_of_mem access hmem, hleft⟩
    cases access with
    | load hooks outcomes => exact hrest (loadWith_left hooks outcomes start)
    | publish source hooks outcomes =>
      rcases publishWith_left hstart source hooks outcomes with hsame | ⟨hfree, pair, hpair, hleft⟩
      · exact hrest hsame
      · rcases hleft.occupied with hsame | hoccupied
        · exact hrest hsame
        · refine .inr ⟨hfree, source, hooks, outcomes, pair, List.mem_cons_self, hpair, ?_⟩
          have hlast : (runAccesses (.publish source hooks outcomes :: rest) start).2 =
              (publishWith source hooks start outcomes).2.1 :=
            (runAccesses_occupied hoccupied rest).1
          rwa [hlast]

theorem KeyLeft.wellFormed {role : InitializationKeyRole} {bytes : List UInt8}
    (h : KeyLeft role start bytes directory) (hstart : start.WellFormed) :
    directory.WellFormed := by
  rcases h with rfl | ⟨_, _, _, htemporary⟩ | hplaced
  · exact hstart
  · exact htemporary.wellFormed
  · exact hplaced.wellFormed

theorem Access.wellFormed (hstart : start.WellFormed) (access : Access) :
    (access.run start).2.WellFormed := by
  cases access with
  | load hooks outcomes =>
    show (loadWith hooks start outcomes).2.1.WellFormed
    rwa [loadWith_left]
  | publish source hooks outcomes =>
    show (publishWith source hooks start outcomes).2.1.WellFormed
    rcases publishWith_left hstart source hooks outcomes with
      hsame | ⟨-, pair, -, hfirst | ⟨first, hplaced, hsecond⟩⟩
    · rwa [hsame]
    · exact hfirst.wellFormed hstart
    · exact hsecond.wellFormed hplaced.wellFormed

/-- What a load has answered, the directory still has at the end. -/
theorem stored_of_loaded {accesses : List Access} {pair : InitializationKeyPair}
    (h : .loaded (.ok pair) ∈ (runAccesses accesses start).1) :
    Stored (runAccesses accesses start).2 pair := by
  induction accesses generalizing start with
  | nil => cases h
  | cons access rest ih =>
    rcases List.mem_cons.1 h with hfirst | hrest
    · cases access with
      | publish source hooks outcomes => cases hfirst
      | load hooks outcomes =>
        have hstored := stored_of_loadWith (Report.loaded.inj hfirst).symm
        have hlast : (runAccesses (.load hooks outcomes :: rest) start).2 = start := by
          rw [runAccesses]
          show (runAccesses rest (loadWith hooks start outcomes).2.1).2 = start
          rw [loadWith_left, (runAccesses_occupied hstored.occupied rest).1]
        rwa [hlast]
    · exact ih hrest

/-- A publication that succeeds has placed both keys. -/
theorem occupied_of_published (hstart : start.WellFormed) {access : Access}
    (h : (access.run start).1 = .published (.ok ())) : Occupied (access.run start).2 := by
  cases access with
  | load hooks outcomes => cases h
  | publish source hooks outcomes =>
    have hanswer : PublicationAnswer start source _ _ :=
      @publishWith_spec start hooks source hstart start outcomes rfl
    rw [Report.published.inj h] at hanswer
    obtain ⟨-, pair, -, first, -, hlast⟩ := hanswer
    exact hlast.occupied

theorem count_published_le (hstart : start.WellFormed) (accesses : List Access) :
    (runAccesses accesses start).1.count (.published (.ok ())) ≤ 1 := by
  induction accesses generalizing start with
  | nil => exact Nat.zero_le 1
  | cons access rest ih =>
    rw [runAccesses]
    by_cases hfirst : (access.run start).1 = .published (.ok ())
    · have hnone := (runAccesses_occupied (occupied_of_published hstart hfirst) rest).2
      rw [hfirst, List.count_cons_self, List.count_eq_zero_of_not_mem hnone]
    · rw [List.count_cons_of_ne hfirst]
      exact ih (access.wellFormed hstart)

end Accesses

/-- **The keys are written once.**  For any sequence of publications and loads, each with hooks,
samples and outcomes of its own:

* a publication that finds a name in use changes nothing; it stops or ends with one of the errors
  before the keys are drawn, and with `existingEntry` when no hook and no call fails before;
* a final name that has come into use is never replaced, and it has one whole key;
* a load answers the pair that was there before every access, or the pair of the one publication
  that has placed both keys, in their own roles and as they were drawn;
* at most one publication succeeds, and all loads answer the same pair. -/
theorem initialization_keys_written_once (start : Directory) (hstart : start.WellFormed)
    (accesses : List Access) :
    let left := (runAccesses accesses start).2
    let reports := (runAccesses accesses start).1
    (Occupied left →
      (∀ source hooks outcomes, (publishWith source hooks left outcomes).2.1 = left ∧
        ((publishWith source hooks left outcomes).1 = .stopped ∨
          ∃ e ∈ earlyErrors, (publishWith source hooks left outcomes).1 = .error e)) ∧
      (left.mode = 0o700 → left.owned = true → ∀ source hooks, Quiet hooks →
        ∃ calls, ∀ counts : List ℕ, calls ≤ counts.length →
          (publishWith source hooks left (through counts)).1 = .error .existingEntry)) ∧
    (∀ before after role file, accesses = before ++ after →
      (runAccesses before start).2.entries (keyFinal role) = some file →
        left.entries (keyFinal role) = some file ∧
          left.files file = (runAccesses before start).2.files file) ∧
    (∀ role file, start.entries (keyFinal role) = none → left.entries (keyFinal role) = some file →
      ∃ source hooks outcomes pair, .publish source hooks outcomes ∈ accesses ∧
        acquireInitializationKeyPairWith source = .ok pair ∧
          left.files file = .ofOwner (pair.key role).toList true) ∧
    (∀ hooks outcomes pair, (loadWith hooks left outcomes).1 = .ok pair →
      (left = start ∧ Stored start pair ∨ ¬ Occupied start ∧
        ∃ source hooks outcomes, .publish source hooks outcomes ∈ accesses ∧
          acquireInitializationKeyPairWith source = .ok pair ∧
          (∀ role, source role = .ok (pair.key role, 32)) ∧ BothPlaced start pair left) ∧
      (∀ role, (pair.key role).toList.all (· == 0) = false) ∧
      pair.key .journalIntegrity ≠ pair.key .portableReservation) ∧
    reports.count (.published (.ok ())) ≤ 1 ∧
    ∀ pair pair', .loaded (.ok pair) ∈ reports → .loaded (.ok pair') ∈ reports → pair = pair' := by
  intro left reports
  have hleft : left = start ∨ ¬ Occupied start ∧ _ := runAccesses_left hstart accesses
  -- from the first name in use on, no access changes the directory
  refine ⟨fun hoccupied => ⟨publishWith_occupied hoccupied, ?_⟩, ?_, ?_, ?_,
    count_published_le hstart accesses, fun pair pair' h h' =>
      (stored_of_loaded h).unique (stored_of_loaded h')⟩
  · intro hmode howned source hooks hquiet
    obtain ⟨calls, hrefuses⟩ := refuses_publishWith hoccupied hmode howned hquiet source
    refine ⟨calls, fun counts hlength => ?_⟩
    obtain ⟨rest, hrun⟩ := hrefuses counts hlength
    rw [hrun]
  · rintro before after role file rfl hfile
    have hoccupied : Occupied (runAccesses before start).2 :=
      ⟨role, .inr (by rw [hfile]; nofun)⟩
    have hsame : left = (runAccesses before start).2 :=
      (runAccesses_append before after start).trans (runAccesses_occupied hoccupied after).1
    rw [hsame]
    exact ⟨hfile, rfl⟩
  · intro role file hnone hfile
    rcases hleft with hsame | ⟨hfree, source, hooks, outcomes, pair, hmem, hpair, hleft⟩
    · rw [hsame, hnone] at hfile
      cases hfile
    · exact ⟨source, hooks, outcomes, pair, hmem, hpair, hleft.final hstart hfree hfile⟩
  · intro hooks outcomes pair hload
    have hstored := stored_of_loadWith hload
    refine ⟨?_, hstored.nonzero, hstored.differ⟩
    rcases hleft with hsame | ⟨hfree, source, hooks, outcomes, pair', hmem, hpair, hleft⟩
    · exact .inl ⟨hsame, hsame ▸ hstored⟩
    · obtain ⟨hboth, rfl⟩ := hleft.stored hstart hfree hstored
      exact .inr ⟨hfree, source, hooks, outcomes, hmem, hpair,
        fun role => ((acquire_eq_ok hpair).1 role).1, hboth⟩

/-- A directory that has had a pair before. -/
def keyDirectory : Directory where
  files number := .ofOwner (List.replicate 32 (if number = 0 then 1 else 2)) true
  entries name :=
    if name = keyFinal .journalIntegrity then some 0
    else if name = keyFinal .portableReservation then some 1 else none
  settled _ := none
  fresh := 2
  mode := 0o700
  owned := true

/-- The pair that it has. -/
def keyDirectoryPair : InitializationKeyPair :=
  ⟨⟨List.Vector.replicate 32 1⟩, ⟨List.Vector.replicate 32 2⟩⟩

theorem load_keyDirectory :
    (loadWith (fun _ _ => .continue) keyDirectory (List.replicate 19 (.done 32))).1 =
      .ok keyDirectoryPair := by decide +kernel

theorem occupied_keyDirectory : Occupied keyDirectory :=
  (stored_of_loadWith load_keyDirectory).occupied

/-- An empty directory. -/
def newKeyDirectory : Directory where
  files _ := .ofOwner [] false
  entries _ := none
  settled _ := none
  fresh := 0
  mode := 0o700
  owned := true

/-- A source that gives two different keys. -/
def sampleSource : InitializationEntropySource
  | .journalIntegrity => .ok (List.Vector.replicate 32 1, 32)
  | .portableReservation => .ok (List.Vector.replicate 32 2, 32)

/-- A publication and a load. -/
def sampleAccesses : List Access :=
  [.publish sampleSource (fun _ _ => .continue) (List.replicate 60 (.done 32)),
    .load (fun _ _ => .continue) (List.replicate 19 (.done 32))]

theorem load_sampleAccesses :
    (loadWith (fun _ _ => .continue) (runAccesses sampleAccesses newKeyDirectory).2
      (List.replicate 19 (.done 32))).1 = .ok keyDirectoryPair := by decide +kernel

theorem initialization_keys_written_once_new :
    ∃ source hooks outcomes, .publish source hooks outcomes ∈ sampleAccesses ∧
      acquireInitializationKeyPairWith source = .ok keyDirectoryPair ∧
      (∀ role, source role = .ok (keyDirectoryPair.key role, 32)) ∧
      BothPlaced newKeyDirectory keyDirectoryPair (runAccesses sampleAccesses newKeyDirectory).2 := by
  have hwell : newKeyDirectory.WellFormed := by
    rintro name file (hfile | hfile)
    · cases hfile
    · cases hfile
  rcases ((initialization_keys_written_once newKeyDirectory hwell sampleAccesses).2.2.2.1 _ _ _
    load_sampleAccesses).1 with ⟨-, hstored⟩ | ⟨-, hplaced⟩
  · obtain ⟨file, hfile, -⟩ := hstored.final .journalIntegrity
    cases hfile
  · exact hplaced

/-- A publication on a directory in use can fail before it looks at the names, and a load answers a
pair that was there before every publication. -/
theorem initialization_keys_from_before :
    Occupied keyDirectory ∧
    (∀ source outcomes,
      (publishWith source (fun _ _ => .fail) keyDirectory outcomes).1 = .error .policy) ∧
    (∀ source hooks outcomes, (publishWith source hooks keyDirectory outcomes).2.1 = keyDirectory) ∧
    (loadWith (fun _ _ => .continue) keyDirectory (List.replicate 19 (.done 32))).1 =
      .ok keyDirectoryPair :=
  ⟨occupied_keyDirectory, fun _ _ => rfl, fun source hooks outcomes =>
    (publishWith_occupied occupied_keyDirectory source hooks outcomes).1, load_keyDirectory⟩

end MsgRiver.Journal
