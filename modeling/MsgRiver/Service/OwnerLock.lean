import MsgRiver.Lib.Pool

/-!
# The owner lock

A service owns its state directory through an exclusive lock on the file `msgriver.lock` in it.
`Files` is what the calls of `StateOwnerLock` see of the file system: the path of the state
directory, what stands behind each inode number, and who holds which lock.  `answer` is one call of
a process of the service, and `Change` is what other programs do meanwhile.

The programs are written over any way to make a call (`file`).  What they rest on is `Evolves`: a
private directory stays private and keeps the lock file that it has, and the path keeps its file
unless another program gives it another one.
-/

namespace MsgRiver.Service.OwnerLock

/-! ### The file system -/

/-- `FileType`. -/
inductive FileKind
  | directory
  | regular
  | other
  deriving DecidableEq

/-- What `stat` tells of a file, besides its number. -/
structure Metadata where
  kind : FileKind
  /-- The low twelve bits of `st_mode`. -/
  mode : ℕ
  uid : ℕ
  links : ℕ
  deriving DecidableEq

/-- What stands behind an inode number; `entry` is what `msgriver.lock` names in a directory. -/
structure Node extends Metadata where
  entry : Option ℕ
  deriving DecidableEq

/-- `st_dev` and `st_ino` are one number here. -/
structure Stat extends Metadata where
  number : ℕ
  deriving DecidableEq

/-- The file system, as far as the lock is concerned. -/
structure Files where
  node : ℕ → Option Node
  /-- What the path of the state directory names. -/
  root : Option ℕ
  /-- The process that holds the lock of a file. -/
  held : ℕ → Option ℕ
  /-- Another program has changed what the path names.  No call looks at this. -/
  rebound : Bool

/-- The errors that the code tells apart. -/
inductive Errno
  | exist
  | again
  | other
  deriving DecidableEq

/-- The system calls.  `setPermissions` follows links, the other calls do not; `flock` is also told
the directory of the file, which the system does not see. -/
inductive FileCall
  | createDir
  | symlinkMetadata
  | setPermissions
  | openRoot
  | fstat (file : ℕ)
  | createEntry (directory : ℕ)
  | fchmod (file : ℕ)
  | statEntry (directory : ℕ)
  | openEntry (directory : ℕ)
  | flock (directory file : ℕ)

/-- What a call returns when it succeeds. -/
abbrev FileValue : FileCall → Type
  | .createDir | .setPermissions | .fchmod _ | .flock .. => Unit
  | .symlinkMetadata | .fstat _ | .statEntry _ => Stat
  | .openRoot | .createEntry _ | .openEntry _ => ℕ

/-- The answer to a call. -/
abbrev FileReply (call : FileCall) : Type := Except Errno (FileValue call)

/-- How a call turns out: the error that it fails with, if it does, the file that a link at the path
leads to, and the number that a new file gets. -/
structure FileFate where
  error : Option Errno
  target : ℕ
  fresh : ℕ

namespace Files

/-- Something else stands behind an inode number. -/
def setNode (s : Files) (n : ℕ) (node : Option Node) : Files :=
  { s with node := Function.update s.node n node }

/-- What `stat` returns for an inode number. -/
def stat (s : Files) (n : ℕ) : Option Stat :=
  (s.node n).map fun node => { node.toMetadata with number := n }

/-- What `msgriver.lock` names in the directory. -/
def entry (s : Files) (d : ℕ) : Option ℕ := (s.node d).bind Node.entry

/-- `close`, also by the system when the process has ended. -/
def release (s : Files) (w : ℕ) : Files :=
  { s with held := fun file => if s.held file = some w then none else s.held file }

/-- A value, or an error. -/
def found {α : Type} (s : Files) : Option α → Except Errno α × Files
  | some a => (.ok a, s)
  | none => (.error .other, s)

/-- The mode of a file of the user is changed. -/
def chmod (euid mode n : ℕ) (s : Files) : Except Errno Unit × Files :=
  match s.node n with
  | none => (.error .other, s)
  | some node =>
    if node.uid = euid then (.ok (), s.setNode n (some { node with mode }))
    else (.error .other, s)

/-- A call of a process of the service, with the umask that the startup policy installs. -/
def perform (euid w : ℕ) (fate : FileFate) :
    (call : FileCall) → Files → FileReply call × Files
  | .createDir, s =>
    match s.root, s.node fate.fresh with
    | some _, _ => (.error .exist, s)
    | none, some _ => (.error .other, s)
    | none, none =>
      (.ok (), { s.setNode fate.fresh (some ⟨⟨.directory, 0o700, euid, 2⟩, none⟩) with
        root := some fate.fresh })
  | .symlinkMetadata, s => s.found (s.root.bind s.stat)
  | .setPermissions, s =>
    match s.root.bind s.stat with
    | none => (.error .other, s)
    | some metadata =>
      chmod euid 0o700 (if metadata.kind = .directory then metadata.number else fate.target) s
  | .openRoot, s => s.found ((s.root.bind s.stat).map Stat.number)
  | .fstat n, s => s.found (s.stat n)
  | .createEntry d, s =>
    match s.node d, s.node fate.fresh with
    | some ⟨⟨.directory, mode, uid, links⟩, none⟩, none =>
      (.ok fate.fresh, (s.setNode fate.fresh (some ⟨⟨.regular, 0o600, euid, 1⟩, none⟩)).setNode d
        (some ⟨⟨.directory, mode, uid, links⟩, some fate.fresh⟩))
    | some ⟨_, some _⟩, _ => (.error .exist, s)
    | _, _ => (.error .other, s)
  | .fchmod n, s =>
    -- the descriptor was opened for writing, so it is not one of a directory
    if (s.stat n).any fun metadata => metadata.kind == .directory then (.error .other, s)
    else chmod euid 0o600 n s
  | .statEntry d, s => s.found ((s.entry d).bind s.stat)
  | .openEntry d, s => s.found (s.entry d)
  | .flock _ n, s =>
    match s.held n with
    | some _ => (.error .again, s)
    | none => (.ok (), { s with held := Function.update s.held n (some w) })

/-- The answer to a call, which may fail for a reason of its own. -/
def answer (euid w : ℕ) (call : FileCall) (fate : FileFate) (s : Files) :
    FileReply call × Files :=
  match fate.error with
  | some e => (.error e, s)
  | none => s.perform euid w fate call

/-- A directory that only its owner, the user of the service, can look into. -/
def isPrivate (euid : ℕ) (s : Files) (d : ℕ) : Bool :=
  (s.node d).any fun node =>
    node.kind == .directory && node.mode == 0o700 && node.uid == euid

end Files

/-- What other programs do: they name another file by the path, and they change, create and remove
everything but the private directories. -/
inductive Change
  | bind (root : Option ℕ)
  | put (n : ℕ) (node : Option Node)

/-- What another program does; it leaves private directories alone. -/
def Change.apply (euid : ℕ) : Change → Files → Files
  | .bind root, s => { s with root, rebound := true }
  | .put n node, s => if s.isPrivate euid n then s else s.setNode n node

/-! ### The programs -/

/-- `StateOwnerLockError`. -/
inductive StateOwnerLockError
  | unsafeRoot
  | unsafeEntry
  | openFailed
  | contended
  | lock
  deriving DecidableEq

section Programs

variable {M : Type → Type} [Monad M] {ε : Type}

/-- `if bad { return Err(e) }`. -/
def refuse (bad : Bool) (e : ε) : ExceptT ε M Unit := if bad then throw e else pure ()

variable (file : (call : FileCall) → M (FileReply call)) (euid : ℕ)

/-- A call, and the error that its failure is reported as. -/
def ask (e : ε) (call : FileCall) : ExceptT ε M (FileValue call) :=
  ExceptT.mk do
    let reply ← file call
    return reply.mapError fun _ => e

/-- The state directory is created if need be, and made private. -/
def prepareStateRoot : ExceptT String M Unit := do
  let created ← ExceptT.lift (file .createDir)
  match created with
  | .ok _ | .error .exist => pure ()
  | .error _ => throw "state directory creation failed"
  let metadata ← ask file "state directory inspection failed" .symlinkMetadata
  refuse (metadata.kind != .directory || metadata.uid != euid) "state directory is unsafe"
  let _ ← ask file "state directory permissions failed" .setPermissions

/-- `unix_mode` leaves out the three highest bits, the check of the opened directory does not. -/
def openPrivateRootReference : ExceptT StateOwnerLockError M ℕ := do
  let metadata ← ask file .unsafeRoot .symlinkMetadata
  refuse (metadata.kind != .directory || metadata.mode % 0o1000 != 0o700 || metadata.uid != euid)
    .unsafeRoot
  let directory ← ask file .unsafeRoot .openRoot
  let opened ← ask file .unsafeRoot (.fstat directory)
  refuse (opened.kind != .directory || opened.mode != 0o700 || opened.uid != euid ||
    opened.number != metadata.number) .unsafeRoot
  return directory

/-- A private regular file with a single name. -/
def validateLockMetadata (metadata : Stat) : ExceptT StateOwnerLockError M Unit :=
  refuse (metadata.kind != .regular || metadata.mode != 0o600 || metadata.uid != euid ||
    metadata.links != 1) .unsafeEntry

/-- What stands behind the name of the lock, if it passes the checks. -/
def safeLockEntryMetadata (directory : ℕ) : ExceptT StateOwnerLockError M Stat := do
  let metadata ← ask file .openFailed (.statEntry directory)
  validateLockMetadata euid metadata
  return metadata

/-- The open is between two looks at the name, and all three must find the same file. -/
def openExistingLockEntry (directory : ℕ) : ExceptT StateOwnerLockError M ℕ := do
  let before ← safeLockEntryMetadata file euid directory
  let entry ← ask file .openFailed (.openEntry directory)
  let opened ← ask file .openFailed (.fstat entry)
  validateLockMetadata euid opened
  refuse (before.number != opened.number) .unsafeEntry
  let after ← safeLockEntryMetadata file euid directory
  refuse (opened.number != after.number) .unsafeEntry
  return entry

/-- The lock file is created, or opened when it is there. -/
def openLockEntry (directory : ℕ) : ExceptT StateOwnerLockError M ℕ := do
  let created ← ExceptT.lift (file (.createEntry directory))
  match created with
  | .ok entry =>
    let _ ← ask file .openFailed (.fchmod entry)
    let metadata ← ask file .openFailed (.fstat entry)
    validateLockMetadata euid metadata
    return entry
  | .error .exist => openExistingLockEntry file euid directory
  | .error _ => throw .openFailed

/-- The lock is asked for without waiting. -/
def acquireOwnerLock (directory : ℕ) : ExceptT StateOwnerLockError M ℕ := do
  let entry ← openLockEntry file euid directory
  let locked ← ExceptT.lift (file (.flock directory entry))
  match locked with
  | .ok _ => return entry
  | .error .again => throw .contended
  | .error _ => throw .lock

/-- `StateOwnerLock::acquire`. -/
def acquire : ExceptT StateOwnerLockError M Unit := do
  let directory ← openPrivateRootReference file euid
  let _ ← acquireOwnerLock file euid directory

end Programs

/-! ### What every call keeps -/

namespace Files

/-- Private directories stay private and keep the lock file that they have. -/
structure Evolves (euid : ℕ) (s t : Files) : Prop where
  kept : ∀ d, s.isPrivate euid d = true →
    t.isPrivate euid d = true ∧ ∀ f, s.entry d = some f → t.entry d = some f
  path : t.rebound = false → s.rebound = false ∧ ∀ d, s.root = some d → t.root = some d

variable {euid w : ℕ} {s t u : Files}

theorem isPrivate_iff {d : ℕ} : s.isPrivate euid d = true ↔
    ∃ links entry, s.node d = some ⟨⟨.directory, 0o700, euid, links⟩, entry⟩ := by
  unfold isPrivate
  rcases s.node d with _ | ⟨⟨kind, mode, uid, links⟩, entry⟩
  · simp
  · simp only [Option.any_some, Bool.and_eq_true, beq_iff_eq, Option.some.injEq, Node.mk.injEq,
      Metadata.mk.injEq]
    constructor
    · rintro ⟨⟨rfl, rfl⟩, rfl⟩
      exact ⟨links, entry, ⟨rfl, rfl, rfl, rfl⟩, rfl⟩
    · rintro ⟨-, -, ⟨rfl, rfl, rfl, -⟩, -⟩
      exact ⟨⟨rfl, rfl⟩, rfl⟩

/-- The nodes stay as they are. -/
theorem Evolves.of_node (h : t.node = s.node)
    (hpath : t.rebound = false → s.rebound = false ∧ ∀ d, s.root = some d → t.root = some d) :
    Evolves euid s t where
  kept d hd := by
    unfold isPrivate entry at *
    rw [h]
    exact ⟨hd, fun _ hf => hf⟩
  path := hpath

theorem Evolves.refl (s : Files) : Evolves euid s s :=
  .of_node rfl fun h => ⟨h, fun _ hd => hd⟩

theorem Evolves.trans (h : Evolves euid s t) (h' : Evolves euid t u) : Evolves euid s u where
  kept d hd := by
    obtain ⟨ht, hentry⟩ := h.kept d hd
    obtain ⟨hu, hentry'⟩ := h'.kept d ht
    exact ⟨hu, fun f hf => hentry' f (hentry f hf)⟩
  path hu := by
    obtain ⟨ht, hroot'⟩ := h'.path hu
    obtain ⟨hs, hroot⟩ := h.path ht
    exact ⟨hs, fun d hd => hroot' d (hroot d hd)⟩

/-- One number changes, and it is not that of a private directory. -/
theorem evolves_setNode {n : ℕ} {node : Option Node} (h : s.isPrivate euid n = false) :
    Evolves euid s (s.setNode n node) where
  kept d hd := by
    have hne : d ≠ n := by
      rintro rfl
      rw [h] at hd
      cases hd
    unfold isPrivate entry setNode at *
    simp only [Function.update_of_ne hne]
    exact ⟨hd, fun _ hf => hf⟩
  path hrebound := ⟨hrebound, fun _ hd => hd⟩

/-- One private directory changes and stays one. -/
theorem evolves_replace {n links links' : ℕ} {entry entry' : Option ℕ} {mode uid : ℕ}
    (h : s.node n = some ⟨⟨.directory, mode, uid, links⟩, entry⟩)
    (hentry : ∀ f, entry = some f → entry' = some f) :
    Evolves euid s (s.setNode n (some ⟨⟨.directory, mode, uid, links'⟩, entry'⟩)) where
  kept d hd := by
    by_cases hne : d = n
    · subst hne
      unfold isPrivate Files.entry setNode at *
      rw [h] at hd ⊢
      simp only [Function.update_self]
      exact ⟨hd, fun f hf => hentry f hf⟩
    · unfold isPrivate Files.entry setNode at *
      simp only [Function.update_of_ne hne]
      exact ⟨hd, fun _ hf => hf⟩
  path hrebound := ⟨hrebound, fun _ hd => hd⟩

theorem isPrivate_of_none {n : ℕ} (h : s.node n = none) : s.isPrivate euid n = false := by
  unfold isPrivate
  rw [h]
  rfl

theorem evolves_chmod {mode n : ℕ} (h : s.isPrivate euid n = true → mode = 0o700) :
    Evolves euid s (chmod euid mode n s).2 := by
  unfold chmod
  cases hnode : s.node n with
  | none => exact .refl s
  | some node =>
    simp only
    split_ifs with huid
    · cases hprivate : s.isPrivate euid n with
      | false => exact evolves_setNode hprivate
      | true =>
        cases h hprivate
        obtain ⟨links, entry, hfound⟩ := isPrivate_iff.1 hprivate
        cases hnode.symm.trans hfound
        exact evolves_replace hfound fun _ hf => hf
    · exact .refl s

@[simp] theorem found_snd {α : Type} (s : Files) (x : Option α) : (s.found x).2 = s := by
  cases x <;> rfl

theorem evolves_perform (fate : FileFate) (call : FileCall) (s : Files) :
    Evolves euid s (s.perform euid w fate call).2 := by
  cases call with
  | symlinkMetadata =>
    rw [perform, found_snd]
    exact .refl s
  | openRoot =>
    rw [perform, found_snd]
    exact .refl s
  | fstat n =>
    rw [perform, found_snd]
    exact .refl s
  | statEntry d =>
    rw [perform, found_snd]
    exact .refl s
  | openEntry d =>
    rw [perform, found_snd]
    exact .refl s
  | flock d n =>
    simp only [perform]
    split <;> exact .of_node rfl fun h => ⟨h, fun _ hd => hd⟩
  | createDir =>
    simp only [perform]
    split
    · exact .refl s
    · exact .refl s
    · rename_i hroot hfresh
      refine .trans (evolves_setNode (isPrivate_of_none hfresh)) (.of_node rfl fun h => ⟨h, ?_⟩)
      intro d hd
      rw [show (s.setNode _ _).root = s.root from rfl, hroot] at hd
      cases hd
  | setPermissions =>
    simp only [perform]
    split
    · exact .refl s
    · exact evolves_chmod fun _ => rfl
  | fchmod n =>
    simp only [perform]
    by_cases hkind : (s.stat n).any fun metadata => metadata.kind == .directory
    · rw [if_pos hkind]
      exact .refl s
    · rw [if_neg hkind]
      refine evolves_chmod fun hprivate => ?_
      obtain ⟨links, entry, hnode⟩ := isPrivate_iff.1 hprivate
      refine absurd ?_ hkind
      rw [stat, hnode]
      rfl
  | createEntry d =>
    simp only [perform]
    split
    · rename_i hd hfresh
      have hne : d ≠ fate.fresh := by
        rintro rfl
        rw [hfresh] at hd
        cases hd
      have hcreated : Evolves euid s
          (s.setNode fate.fresh (some ⟨⟨.regular, 0o600, euid, 1⟩, none⟩)) :=
        evolves_setNode (isPrivate_of_none hfresh)
      exact hcreated.trans (evolves_replace ((Function.update_of_ne hne ..).trans hd)
        fun f hf => (nomatch hf))
    · exact .refl s
    · exact .refl s

theorem evolves_answer (call : FileCall) (fate : FileFate) (s : Files) :
    Evolves euid s (s.answer euid w call fate).2 := by
  unfold answer
  split
  · exact .refl s
  · exact evolves_perform fate call s

theorem chmod_held (mode n : ℕ) (s : Files) : (chmod euid mode n s).2.held = s.held := by
  unfold chmod
  split
  · rfl
  · split_ifs <;> rfl

/-- A lock that is held stays held. -/
theorem held_perform (fate : FileFate) (call : FileCall) {f v : ℕ} (h : s.held f = some v) :
    (s.perform euid w fate call).2.held f = some v := by
  cases call with
  | symlinkMetadata => rw [perform, found_snd, h]
  | openRoot => rw [perform, found_snd, h]
  | fstat n => rw [perform, found_snd, h]
  | statEntry d => rw [perform, found_snd, h]
  | openEntry d => rw [perform, found_snd, h]
  | createDir => simp only [perform]; split <;> exact h
  | createEntry d => simp only [perform]; split <;> exact h
  | setPermissions =>
    simp only [perform]
    split
    · exact h
    · rw [chmod_held, h]
  | fchmod n =>
    simp only [perform]
    by_cases hkind : (s.stat n).any fun metadata => metadata.kind == .directory
    · rw [if_pos hkind, h]
    · rw [if_neg hkind, chmod_held, h]
  | flock d n =>
    simp only [perform]
    split
    · exact h
    · rename_i hfree
      have hne : f ≠ n := by
        rintro rfl
        rw [hfree] at h
        cases h
      exact (Function.update_of_ne hne ..).trans h

theorem held_answer (call : FileCall) (fate : FileFate) {f v : ℕ} (h : s.held f = some v) :
    (s.answer euid w call fate).2.held f = some v := by
  unfold answer
  split
  · exact h
  · exact held_perform fate call h

theorem fstat_eq_ok {n : ℕ} {fate : FileFate} {metadata : Stat}
    (h : (s.answer euid w (.fstat n) fate).1 = .ok metadata) :
    ∃ node, s.node n = some node ∧ metadata = { node.toMetadata with number := n } := by
  unfold answer at h
  cases hfate : fate.error with
  | some e => rw [hfate] at h; cases h
  | none =>
    simp only [hfate, perform, stat] at h
    cases hnode : s.node n with
    | none => rw [hnode] at h; cases h
    | some node =>
      rw [hnode] at h
      cases h
      exact ⟨node, rfl, rfl⟩

/-- The directory that the path names is opened. -/
theorem openRoot_eq_ok {fate : FileFate} {d : ℕ} (h : (s.answer euid w .openRoot fate).1 = .ok d) :
    s.root = some d := by
  unfold answer at h
  cases hfate : fate.error with
  | some e => rw [hfate] at h; cases h
  | none =>
    simp only [hfate, perform] at h
    cases hopened : (s.root.bind s.stat).map Stat.number with
    | none => rw [hopened] at h; cases h
    | some n =>
      rw [hopened] at h
      cases h
      obtain ⟨metadata, hstat, rfl⟩ := Option.map_eq_some_iff.1 hopened
      obtain ⟨n, hroot, hstat⟩ := Option.bind_eq_some_iff.1 hstat
      obtain ⟨node, -, rfl⟩ := Option.map_eq_some_iff.1 hstat
      exact hroot

theorem openEntry_eq_ok {d n : ℕ} {fate : FileFate}
    (h : (s.answer euid w (.openEntry d) fate).1 = .ok n) : s.entry d = some n := by
  unfold answer at h
  cases hfate : fate.error with
  | some e => rw [hfate] at h; cases h
  | none =>
    simp only [hfate, perform] at h
    cases hentry : s.entry d with
    | none => rw [hentry] at h; cases h
    | some n' =>
      rw [hentry] at h
      cases h
      rfl

theorem entry_setNode (s : Files) (n : ℕ) (node : Option Node) :
    (s.setNode n node).entry n = node.bind Node.entry := by
  show (Function.update s.node n node n).bind Node.entry = _
  rw [Function.update_self]

/-- A new lock file is what the directory names. -/
theorem createEntry_eq_ok {d n : ℕ} {fate : FileFate}
    (h : (s.answer euid w (.createEntry d) fate).1 = .ok n) :
    (s.answer euid w (.createEntry d) fate).2.entry d = some n := by
  unfold answer at h ⊢
  cases hfate : fate.error with
  | some e => rw [hfate] at h; cases h
  | none =>
    simp only [hfate, perform] at h ⊢
    split at h
    · cases h
      exact entry_setNode ..
    · cases h
    · cases h

/-- A lock is granted when nobody holds it. -/
theorem flock_eq_ok {d n : ℕ} {fate : FileFate} {u : Unit}
    (h : (s.answer euid w (.flock d n) fate).1 = .ok u) :
    s.held n = none ∧
      (s.answer euid w (.flock d n) fate).2 =
        { s with held := Function.update s.held n (some w) } := by
  unfold answer at h ⊢
  cases hfate : fate.error with
  | some e => rw [hfate] at h; cases h
  | none =>
    simp only [hfate, perform] at h ⊢
    cases hheld : s.held n with
    | some v => rw [hheld] at h; cases h
    | none => exact ⟨rfl, rfl⟩

end Files

theorem Change.held (euid : ℕ) (change : Change) (s : Files) :
    (change.apply euid s).held = s.held := by
  cases change with
  | bind root => rfl
  | put n node =>
    simp only [Change.apply]
    split_ifs <;> rfl

theorem Change.evolves {euid : ℕ} (change : Change) (s : Files) :
    s.Evolves euid (change.apply euid s) := by
  cases change with
  | bind root => exact .of_node rfl fun h => (nomatch h)
  | put n node =>
    simp only [Change.apply]
    split_ifs with hprivate
    · exact .refl s
    · exact Files.evolves_setNode (Bool.eq_false_iff.2 hprivate)

end MsgRiver.Service.OwnerLock
