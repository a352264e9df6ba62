import MsgRiver.Journal.Envelope
import MsgRiver.Keys.Manifest

/-!
# The directory of MAC keys

A generation keeps its MAC keys under `mac`, in one directory for each purpose, each key in a file
of its own.  The verifier lists `mac` and every directory of a purpose once, in whatever order the
entries come, and marks what it has seen; then it reads the files and authenticates them.

* `stateMacKeyRelativePath_injective`: two references never share a path;
* `decides_verifyNames`: a pass over a listing accepts the permutations of the expected names;
* `VerifiedDirectory`: what the verifier accepts, as a property of the entries alone.
-/

namespace MsgRiver.Keys

open MsgRiver.Core Bytes Ascii Result Verdict

/-! ### Paths -/

/-- The digits of a path. -/
def hex : List UInt8 := codes "0123456789abcdef".toList

/-- The two digits of a byte. -/
def hexByte (byte : UInt8) : List UInt8 :=
  [byteAt hex (byte >>> 4).toNat, byteAt hex (byte &&& 0x0f).toNat]

/-- The path of a key: its purpose, then its identity, both in hexadecimal. -/
def stateMacKeyRelativePath (reference : MacKeyRef) : List UInt8 :=
  codes "mac/".toList ++ hexByte reference.purpose.code ++ codes "/mk_".toList
    ++ reference.keyId.toList.flatMap hexByte

/-- The name of the file of a key, in the directory of its purpose. -/
def leafName (reference : MacKeyRef) : List UInt8 := (stateMacKeyRelativePath reference).drop 7

/-- The names of the directories of the purposes. -/
def purposeNames : List (List UInt8) :=
  ["01", "02", "03", "04", "05", "06", "07", "08", "09", "0a", "0b"].map fun name =>
    codes name.toList

/-! ### Files of keys -/

/-- The error of the file's codec. -/
inductive StateMacKeyFileError
  | invalidStateMacKeyFile
  deriving DecidableEq

/-- The label of file tags. -/
def stateMacKeyFileDomain : List UInt8 := codes "msgriver/state-mac-key/v1".toList

/-- The serial of a reference is not zero. -/
def validateReference (reference : MacKeyRef) : Except StateMacKeyFileError Unit :=
  reject ((reference.keyId.toList.drop 32).all (· == 0)) .invalidStateMacKeyFile

/-- The purpose of a number. -/
def purposeFromByte (byte : UInt8) : Except StateMacKeyFileError MacPurpose :=
  orError .invalidStateMacKeyFile (MacPurpose.all.find? fun purpose => purpose.code == byte)

/-- The key in a file, which has to be the one that is expected. -/
def decodeStateMacKeyFile (key : Journal.JournalIntegrityKey) (expected : MacKeyRef)
    (wire : List UInt8) : Except StateMacKeyFileError (ByteVec 32) := do
  validateReference expected
  reject (wire.length != 106) .invalidStateMacKeyFile
  reject (wire.drop 74 != (key.tag stateMacKeyFileDomain (wire.take 74)).toList)
    .invalidStateMacKeyFile
  reject (byteAt wire 0 != 1) .invalidStateMacKeyFile
  let purpose ← purposeFromByte (byteAt wire 1)
  let keyId ← orError .invalidStateMacKeyFile (toVec? 40 (slice wire 2 42))
  let actual : MacKeyRef := ⟨purpose, keyId⟩
  validateReference actual
  reject (actual != expected) .invalidStateMacKeyFile
  let secret ← orError .invalidStateMacKeyFile (toVec? 32 (slice wire 42 74))
  reject (secret.toList.all (· == 0)) .invalidStateMacKeyFile
  return secret

/-! ### Directories -/

/-- The bytes of a name. -/
abbrev FileName := List UInt8

/-- The directory itself. -/
def dot : FileName := codes ['.']

/-- The directory above. -/
def dotDot : FileName := codes ['.', '.']

/-- The metadata of an entry. -/
structure Stat where
  mode : UInt32
  uid : UInt32
  nlink : UInt64
  size : ℕ
  dev : UInt64
  ino : UInt64

/-- `FileType::from_raw_mode(mode) == FileType::Directory`. -/
def Stat.isDirectory (stat : Stat) : Bool := stat.mode &&& 0o170000 == 0o040000

/-- A regular file. -/
def Stat.isRegular (stat : Stat) : Bool := stat.mode &&& 0o170000 == 0o100000

/-- A finite map from names to entries. -/
structure Directory (α : Type) where
  entries : List (FileName × α)
  nodup : (entries.map Prod.fst).Nodup
  plain : ∀ name ∈ entries.map Prod.fst, name ≠ dot ∧ name ≠ dotDot

namespace Directory

variable {α : Type} (directory : Directory α)

/-- The names of a directory. -/
def names : List FileName := directory.entries.map Prod.fst

/-- The entry of a name. -/
def lookup (name : FileName) : Option α :=
  (directory.entries.find? fun entry => entry.1 == name).map Prod.snd

end Directory

/-- An entry of the directory of a purpose. -/
structure Leaf where
  stat : Stat
  content : List UInt8
  sized : stat.isRegular = true → stat.size = content.length

/-- An entry of `mac`. -/
structure PurposeNode where
  stat : Stat
  leaves : Directory Leaf

/-- An entry of a generation. -/
structure MacNode where
  stat : Stat
  purposes : Directory PurposeNode

/-- The order in which a directory is listed, which may be any. -/
structure Listing where
  order : List FileName → List FileName → List FileName
  perm : ∀ path names, (order path names).Perm (dot :: dotDot :: names)

/-! ### The verifier -/

/-- The error of the verifier. -/
inductive StateMacKeyDirectoryVerifierError
  | invalidStateMacKeyDirectoryVerifier
  deriving DecidableEq

/-- What a step of the verifier answers. -/
abbrev Verified (α : Type) := Except (Halt StateMacKeyDirectoryVerifierError) α

/-- Every error of the verifier. -/
def invalid : Halt StateMacKeyDirectoryVerifierError := .error .invalidStateMacKeyDirectoryVerifier

/-- One more reference under its purpose. -/
def expectRow (purposes : List (List MacKeyRef)) (row : StateMacKeyManifestRow) :
    Verified (List (List MacKeyRef)) := do
  let code := row.reference.purpose.code.toNat
  let index ← orError invalid
    (if 1 ≤ code ∧ code - 1 < purposes.length then some (code - 1) else none)
  let expected ← readAt purposes index
  reject (expected.length == 16) invalid
  reject (expected.any fun reference => leafName reference == leafName row.reference) invalid
  writeAt purposes index (expected ++ [row.reference])

/-- The references of the rows, by purpose. -/
def expectedPurposes (rows : List StateMacKeyManifestRow) : Verified (List (List MacKeyRef)) :=
  rows.foldlM expectRow (List.replicate 11 [])

/-- One name of a listing. -/
def seeName (expected : List FileName) (seen : List Bool) (name : FileName) :
    Verified (List Bool) :=
  if name = dot ∨ name = dotDot then .ok seen
  else do
    let index ← orError invalid (expected.findIdx? (· == name))
    reject (← readAt seen index) invalid
    writeAt seen index true

/-- A pass over a listing, with an array of marks. -/
def verifyNames (expected : List FileName) (capacity : ℕ) (listing : List FileName) :
    Verified Unit := do
  let seen ← listing.foldlM (seeName expected) (List.replicate capacity false)
  reject ((seen.take expected.length).any (!·)) invalid

/-- The directory names the eleven purposes, and nothing else. -/
def verifyNamespaceEntries (listing : Listing) (mac : MacNode) : Verified Unit :=
  verifyNames purposeNames 11 (listing.order [] mac.purposes.names)

/-- A directory of this user that is closed to others. -/
def isOwnerOnlyPurposeDirectory (euid : UInt32) (stat : Stat) : Bool :=
  stat.isDirectory && stat.mode &&& 0o7777 == 0o700 && stat.uid == euid

/-- A regular file of this user, closed to others, of the length of a key file. -/
def isOwnerOnlyStateKeyFile (euid : UInt32) (stat : Stat) : Bool :=
  stat.isRegular && stat.mode &&& 0o7777 == 0o600 && stat.uid == euid && stat.nlink == 1
    && stat.size == 106

/-- The file is looked at before and after it is opened, and read to its end. -/
def readAuthenticatedLeaf (euid : UInt32) (key : Journal.JournalIntegrityKey)
    (purpose : PurposeNode) (reference : MacKeyRef) : Verified Unit := do
  let before ← orError invalid (purpose.leaves.lookup (leafName reference))
  reject (!isOwnerOnlyStateKeyFile euid before.stat) invalid
  let file ← orError invalid (purpose.leaves.lookup (leafName reference))
  reject (!isOwnerOnlyStateKeyFile euid file.stat || before.stat.dev != file.stat.dev
    || before.stat.ino != file.stat.ino) invalid
  reject ((file.content.take 106).length != 106) invalid
  reject (((file.content.drop 106).take 1).length != 0) invalid
  let _ ← (decodeStateMacKeyFile key reference (file.content.take 106)).mapError fun _ => invalid
  return ()

/-- A purpose holds the files of its references, and nothing else. -/
def verifyPurposeEntries (listing : Listing) (euid : UInt32) (key : Journal.JournalIntegrityKey)
    (name : FileName) (purpose : PurposeNode) (expected : List MacKeyRef) : Verified Unit := do
  verifyNames (expected.map leafName) 16 (listing.order [name] purpose.leaves.names)
  expected.forM (readAuthenticatedLeaf euid key purpose)

/-- `openat` of a directory, without following a link. -/
def openDirectory {α : Type} (stat : α → Stat) (directory : Directory α) (name : FileName) :
    Verified α := do
  let node ← orError invalid (directory.lookup name)
  reject (!(stat node).isDirectory) invalid
  return node

/-- The directory of a purpose is one of this user's, and its entries are verified. -/
def verifyPurpose (listing : Listing) (euid : UInt32) (key : Journal.JournalIntegrityKey)
    (mac : MacNode) (expected : List (List MacKeyRef)) (indexed : FileName × ℕ) :
    Verified Unit := do
  let purpose ← openDirectory PurposeNode.stat mac.purposes indexed.1
  reject (!isOwnerOnlyPurposeDirectory euid purpose.stat) invalid
  let references ← readAt expected indexed.2
  verifyPurposeEntries listing euid key indexed.1 purpose references

/-- `verify_state_mac_key_directory`. -/
def verifyStateMacKeyDirectory (listing : Listing) (euid : UInt32)
    (key : Journal.JournalIntegrityKey) (generation : Directory MacNode)
    (rows : List StateMacKeyManifestRow) : Verified Unit := do
  let expected ← expectedPurposes rows
  let mac ← openDirectory MacNode.stat generation (codes "mac".toList)
  verifyNamespaceEntries listing mac
  purposeNames.zipIdx.forM (verifyPurpose listing euid key mac expected)

/-! ### What the verifier accepts -/

/-- The name of the directory of a purpose. -/
def purposeName (purpose : MacPurpose) : FileName := hexByte purpose.code

/-- The references of the rows of a purpose. -/
def references (rows : List StateMacKeyManifestRow) (purpose : MacPurpose) : List MacKeyRef :=
  (rows.filter fun row => row.reference.purpose == purpose).map StateMacKeyManifestRow.reference

/-- The file of a key. -/
structure VerifiedLeaf (euid : UInt32) (key : Journal.JournalIntegrityKey) (reference : MacKeyRef)
    (leaf : Leaf) : Prop where
  metadata : isOwnerOnlyStateKeyFile euid leaf.stat = true
  authentic : ∃ secret, decodeStateMacKeyFile key reference leaf.content = .ok secret

/-- The directory of a purpose: one file for each reference, and nothing else. -/
structure VerifiedPurpose (euid : UInt32) (key : Journal.JournalIntegrityKey)
    (expected : List MacKeyRef) (node : PurposeNode) : Prop where
  metadata : isOwnerOnlyPurposeDirectory euid node.stat = true
  names : node.leaves.names.Perm (expected.map leafName)
  leaves : ∀ reference ∈ expected, ∃ leaf,
    node.leaves.lookup (leafName reference) = some leaf ∧ VerifiedLeaf euid key reference leaf

/-- The directory of a generation, as the rows describe it. -/
structure VerifiedDirectory (euid : UInt32) (key : Journal.JournalIntegrityKey)
    (generation : Directory MacNode) (rows : List StateMacKeyManifestRow) : Prop where
  distinct : (rows.map StateMacKeyManifestRow.reference).Nodup
  few : ∀ purpose, rowCount rows purpose ≤ 16
  mac : ∃ mac, generation.lookup (codes "mac".toList) = some mac ∧ mac.stat.isDirectory = true ∧
    mac.purposes.names.Perm purposeNames ∧
    ∀ purpose, ∃ node, mac.purposes.lookup (purposeName purpose) = some node ∧
      VerifiedPurpose euid key (references rows purpose) node

/-! ### Distinct paths -/

theorem byteAt_hex_injective : ∀ i j : Fin 16, byteAt hex i = byteAt hex j → i = j := by decide

theorem hexByte_injective {a b : UInt8} (h : hexByte a = hexByte b) : a = b := by
  have hnibbles : ∀ c : UInt8, (c >>> 4).toNat = c.toNat / 16 ∧ (c &&& 0x0f).toNat = c.toNat % 16 :=
    fun c => ⟨toNat_shiftRight (by decide), toNat_and 4 rfl⟩
  have hdigit : ∀ {m n : ℕ}, m < 16 → n < 16 → byteAt hex m = byteAt hex n → m = n :=
    fun hm hn hmn => Fin.mk.inj (byteAt_hex_injective ⟨_, hm⟩ ⟨_, hn⟩ hmn)
  obtain ⟨hhigh, hlow⟩ := List.cons.inj h
  have hlow := (List.cons.inj hlow).1
  rw [(hnibbles a).1, (hnibbles b).1] at hhigh
  rw [(hnibbles a).2, (hnibbles b).2] at hlow
  have ha := a.toNat_lt
  have hb := b.toNat_lt
  have hhigh := hdigit (by omega) (by omega) hhigh
  have hlow := hdigit (by omega) (by omega) hlow
  exact UInt8.toNat_inj.1 (by omega)

theorem flatMap_hexByte_injective {as bs : List UInt8}
    (h : as.flatMap hexByte = bs.flatMap hexByte) : as = bs := by
  induction as generalizing bs with
  | nil =>
    cases bs with
    | nil => rfl
    | cons b bs => cases h
  | cons a as ih =>
    cases bs with
    | nil => cases h
    | cons b bs =>
      rw [List.flatMap_cons, List.flatMap_cons] at h
      obtain ⟨hbyte, hrest⟩ := List.append_inj h rfl
      rw [hexByte_injective hbyte, ih hrest]

theorem leafName_eq (reference : MacKeyRef) :
    leafName reference = codes "mk_".toList ++ reference.keyId.toList.flatMap hexByte := rfl

/-- Under one purpose, the name of its file determines the key. -/
theorem leafName_inj {reference reference' : MacKeyRef}
    (h : reference.purpose = reference'.purpose) :
    leafName reference = leafName reference' ↔ reference = reference' := by
  refine ⟨fun hname => ?_, congrArg leafName⟩
  rw [leafName_eq, leafName_eq, List.append_cancel_left_eq] at hname
  obtain ⟨purpose, keyId⟩ := reference
  obtain ⟨purpose', keyId'⟩ := reference'
  obtain rfl : purpose = purpose' := h
  have hkey : keyId = keyId' := Subtype.ext (flatMap_hexByte_injective hname)
  rw [hkey]

theorem code_injective {purpose purpose' : MacPurpose} (h : purpose.code = purpose'.code) :
    purpose = purpose' := by
  revert h
  cases purpose <;> cases purpose' <;> decide

/-- **Two references never share a path.** -/
theorem stateMacKeyRelativePath_injective {reference reference' : MacKeyRef}
    (h : stateMacKeyRelativePath reference = stateMacKeyRelativePath reference') :
    reference = reference' := by
  refine (leafName_inj (code_injective (hexByte_injective ?_))).1 (congrArg (List.drop 7) h)
  exact congrArg (fun path => (path.drop 4).take 2) h

/-! ### Passes over a listing -/

/-- The name is not that of the directory itself or its parent. -/
def isPlain (name : FileName) : Bool := !(name == dot || name == dotDot)

theorem isPlain_iff {name : FileName} : isPlain name = true ↔ ¬ (name = dot ∨ name = dotDot) := by
  rw [isPlain, Bool.not_eq_true', Bool.or_eq_false_iff, beq_eq_false_iff_ne, beq_eq_false_iff_ne,
    not_or]

/-- The names that a pass looks at. -/
def plainNames (listing : List FileName) : List FileName := listing.filter isPlain

/-- Marking a place is marking the name that stands there. -/
theorem set_map_of_nodup {α β : Type} [DecidableEq α] {xs : List α} (hxs : xs.Nodup) {i : ℕ} {x : α}
    (hx : xs[i]? = some x) (f : α → β) (v : β) :
    (xs.map f).set i v = xs.map (Function.update f x v) := by
  obtain ⟨hi, rfl⟩ := List.getElem?_eq_some_iff.1 hx
  refine List.ext_getElem (by simp) fun j hj hj' => ?_
  rw [List.length_map] at hj'
  rw [List.getElem_set, List.getElem_map, List.getElem_map, Function.update_apply]
  by_cases hij : i = j
  · subst hij
    rw [if_pos rfl, if_pos rfl]
  · rw [if_neg hij, if_neg fun h => hij ((List.Nodup.getElem_inj_iff hxs).1 h.symm)]

section Passes

variable {expected : List FileName} {capacity : ℕ}

/-- What a pass has marked. -/
def seenOf (expected : List FileName) (capacity : ℕ) (listing : List FileName) : List Bool :=
  expected.map (fun name => decide (name ∈ plainNames listing))
    ++ List.replicate (capacity - expected.length) false

/-- What a pass has checked. -/
def Listed (expected listing : List FileName) : Prop :=
  (plainNames listing).Nodup ∧ ∀ name ∈ plainNames listing, name ∈ expected

theorem plainNames_concat (listing : List FileName) (name : FileName) :
    plainNames (listing ++ [name]) =
      if name = dot ∨ name = dotDot then plainNames listing else plainNames listing ++ [name] := by
  rw [plainNames, List.filter_append, ← plainNames]
  by_cases hdot : name = dot ∨ name = dotDot
  · rw [if_pos hdot, List.filter_cons_of_neg (fun h => isPlain_iff.1 h hdot), List.filter_nil,
      List.append_nil]
  · rw [if_neg hdot, List.filter_cons_of_pos (isPlain_iff.2 hdot), List.filter_nil]

theorem listed_concat {listing names : List FileName} {name : FileName}
    (h : Listed expected listing) (hnames : names = plainNames listing ++ [name])
    (hname : name ∈ expected) :
    (names.Nodup ∧ ∀ other ∈ names, other ∈ expected) ↔ name ∉ plainNames listing := by
  rw [hnames, (List.perm_append_singleton name _).nodup_iff, List.nodup_cons]
  constructor
  · rintro ⟨⟨hnew, -⟩, -⟩
    exact hnew
  · intro hnew
    refine ⟨⟨hnew, h.1⟩, fun other hother => ?_⟩
    rcases List.mem_append.1 hother with hother | hother
    · exact h.2 other hother
    · rwa [List.mem_singleton.1 hother]

theorem decides_seeName (hexpected : expected.Nodup) (listing : List FileName) (name : FileName)
    (h : Listed expected listing) :
    Decides Refused (Listed expected (listing ++ [name]))
      (fun seen => seen = seenOf expected capacity (listing ++ [name]))
      (seeName expected (seenOf expected capacity listing) name) := by
  have hplain := plainNames_concat listing name
  unfold seeName
  by_cases hdot : name = dot ∨ name = dotDot
  · rw [if_pos hdot] at hplain
    rw [if_pos hdot, Listed, hplain]
    exact .inl ⟨h, _, rfl, by rw [seenOf, seenOf, hplain]⟩
  rw [if_neg hdot] at hplain
  rw [if_neg hdot]
  -- the names are distinct, so the index of a name is its only one
  cases hindex : expected.findIdx? (· == name) with
  | none =>
    refine .inr ⟨fun hlisted => ?_, invalid, refused_error _, rfl⟩
    rw [Listed, hplain] at hlisted
    have hmem := hlisted.2 name (List.mem_append_right _ (List.mem_singleton_self name))
    have hne := List.findIdx?_eq_none_iff.1 hindex name hmem
    rw [beq_self_eq_true] at hne
    cases hne
  | some i =>
    obtain ⟨hi, hbeq, -⟩ := List.findIdx?_eq_some_iff_getElem.1 hindex
    have hget : expected[i]? = some name := by
      rw [List.getElem?_eq_getElem hi, eq_of_beq hbeq]
    have hlt : i < (expected.map fun name => decide (name ∈ plainNames listing)).length := by
      rwa [List.length_map]
    have hread : readAt (seenOf expected capacity listing) i =
        (.ok (decide (name ∈ plainNames listing)) : Verified Bool) := by
      rw [readAt, seenOf, List.getElem?_append_left hlt, List.getElem?_map, hget]
      rfl
    have hmarked : (fun other => decide (other ∈ plainNames (listing ++ [name]))) =
        Function.update (fun other => decide (other ∈ plainNames listing)) name true := by
      funext other
      rw [hplain, Function.update_apply]
      by_cases hother : other = name
      · rw [if_pos hother, hother]
        simp
      · rw [if_neg hother]
        simp [hother]
    have hwrite : writeAt (seenOf expected capacity listing) i true =
        (.ok (seenOf expected capacity (listing ++ [name])) : Verified (List Bool)) := by
      rw [writeAt, seenOf, if_pos (by rw [List.length_append]; omega), List.set_append_left _ _ hlt,
        set_map_of_nodup hexpected hget, seenOf, hmarked]
    show Decides _ _ _ (readAt _ _ >>= _)
    rw [hread]
    show Decides _ _ _ (reject _ _ >>= fun _ => writeAt _ _ _)
    rw [hwrite]
    refine ((decides_reject (refused_error _)).bind fun _ _ _ => decides_ok ?_).congr ?_
    · rfl
    · rw [and_true, decide_eq_false_iff_not, Listed]
      exact (listed_concat h hplain (List.mem_of_getElem? hget)).symm

/-- **A pass accepts the listings of exactly the expected names.** -/
theorem decides_verifyNames (hexpected : expected.Nodup) (hcapacity : expected.length ≤ capacity)
    (listing : List FileName) :
    Decides Refused ((plainNames listing).Perm expected) (fun _ => True)
      (verifyNames expected capacity listing) := by
  have hstart : seenOf expected capacity [] = List.replicate capacity false := by
    rw [seenOf, plainNames, List.filter_nil]
    simp only [List.not_mem_nil, decide_false, List.map_const']
    rw [List.replicate_append_replicate, Nat.add_sub_cancel' hcapacity]
  have hmono : ∀ xs x, Listed expected (xs ++ [x]) → Listed expected xs := by
    intro xs x hlisted
    have hsub : (plainNames xs).Sublist (plainNames (xs ++ [x])) :=
      (List.sublist_append_left xs [x]).filter _
    exact ⟨hlisted.1.sublist hsub, fun name hname => hlisted.2 name (hsub.subset hname)⟩
  have hloop := decides_foldlM hstart ⟨List.nodup_nil, List.forall_mem_nil _⟩
    (decides_seeName hexpected) hmono listing
  refine (hloop.bind fun seen hlisted hseen => (decides_reject (refused_error _)).congr
    (?_ : _ ↔ ∀ name ∈ expected, name ∈ plainNames listing)).congr ?_
  · rw [hseen, seenOf, List.take_left' (List.length_map _), List.any_eq_false]
    simp only [List.forall_mem_map, Bool.not_eq_true', decide_eq_false_iff_not, not_not]
  · constructor
    · rintro ⟨⟨hnodup, hsub⟩, hall⟩
      exact (List.perm_ext_iff_of_nodup hnodup hexpected).2 fun name => ⟨hsub name, hall name⟩
    · intro hperm
      exact ⟨⟨hperm.nodup_iff.2 hexpected, fun name => hperm.mem_iff.1⟩,
        fun name => hperm.mem_iff.2⟩

end Passes

/-- The listing of a directory lists its entries. -/
theorem plainNames_listing {α : Type} (listing : Listing) (path : List FileName)
    (directory : Directory α) :
    (plainNames (listing.order path directory.names)).Perm directory.names := by
  have hfilter := (listing.perm path directory.names).filter isPlain
  have hplain : (dot :: dotDot :: directory.names).filter isPlain = directory.names := by
    rw [List.filter_cons_of_neg (fun h => isPlain_iff.1 h (.inl rfl)),
      List.filter_cons_of_neg (fun h => isPlain_iff.1 h (.inr rfl)), List.filter_eq_self]
    exact fun name hname => isPlain_iff.2 (not_or.2 (directory.plain name hname))
  rwa [hplain] at hfilter

/-! ### The expected references -/

theorem references_concat (rows : List StateMacKeyManifestRow) (row : StateMacKeyManifestRow) :
    references (rows ++ [row]) = Function.update (references rows) row.reference.purpose
      (references rows row.reference.purpose ++ [row.reference]) := by
  funext purpose
  rw [references, List.filter_append, List.map_append, ← references, Function.update_apply]
  by_cases hpurpose : purpose = row.reference.purpose
  · subst hpurpose
    simp
  · have hother : (row.reference.purpose == purpose) = false :=
      beq_eq_false_iff_ne.2 fun h => hpurpose h.symm
    simp [hpurpose, hother]

theorem length_references (rows : List StateMacKeyManifestRow) (purpose : MacPurpose) :
    (references rows purpose).length = rowCount rows purpose := by
  rw [references, List.length_map, rowCount, List.countP_eq_length_filter]

theorem mem_references {rows : List StateMacKeyManifestRow} {purpose : MacPurpose}
    {reference : MacKeyRef} :
    reference ∈ references rows purpose ↔
      reference ∈ rows.map StateMacKeyManifestRow.reference ∧ reference.purpose = purpose := by
  simp only [references, List.mem_map, List.mem_filter, beq_iff_eq]
  constructor
  · rintro ⟨row, ⟨hrow, hpurpose⟩, rfl⟩
    exact ⟨⟨row, hrow, rfl⟩, hpurpose⟩
  · rintro ⟨⟨row, hrow, rfl⟩, hpurpose⟩
    exact ⟨row, ⟨hrow, hpurpose⟩, rfl⟩

/-- What is checked about the rows. -/
def Expected (rows : List StateMacKeyManifestRow) : Prop :=
  (rows.map StateMacKeyManifestRow.reference).Nodup ∧ ∀ purpose, rowCount rows purpose ≤ 16

theorem decides_expectRow (rows : List StateMacKeyManifestRow) (row : StateMacKeyManifestRow)
    (h : Expected rows) :
    Decides Refused (Expected (rows ++ [row]))
      (fun purposes => purposes = MacPurpose.all.map (references (rows ++ [row])))
      (expectRow (MacPurpose.all.map (references rows)) row) := by
  let purpose := row.reference.purpose
  -- the code of a purpose is one more than its index
  have hindex : (if 1 ≤ purpose.code.toNat ∧
      purpose.code.toNat - 1 < (MacPurpose.all.map (references rows)).length then
      some (purpose.code.toNat - 1) else none) = some (MacPurpose.index purpose) := by
    rw [List.length_map]
    cases purpose <;> rfl
  have hfull : ((references rows purpose).length == 16) = false ↔ rowCount rows purpose < 16 := by
    rw [beq_eq_false_iff_ne, length_references]
    exact ⟨fun hne => Nat.lt_of_le_of_ne (h.2 purpose) hne, Nat.ne_of_lt⟩
  have hseen : ((references rows purpose).any fun reference =>
      leafName reference == leafName row.reference) = false ↔
      row.reference ∉ rows.map StateMacKeyManifestRow.reference := by
    rw [List.any_eq_false]
    constructor
    · intro hnew hmem
      exact hnew row.reference (mem_references.2 ⟨hmem, rfl⟩) (beq_self_eq_true _)
    · intro hnew reference hmem hname
      obtain ⟨hmem, hpurpose⟩ := mem_references.1 hmem
      rw [(leafName_inj hpurpose).1 (eq_of_beq hname)] at hmem
      exact hnew hmem
  have hstep : expectRow (MacPurpose.all.map (references rows)) row = (do
      reject ((references rows purpose).length == 16) invalid
      reject ((references rows purpose).any fun reference =>
        leafName reference == leafName row.reference) invalid
      writeAt (MacPurpose.all.map (references rows)) (MacPurpose.index purpose)
        (references rows purpose ++ [row.reference])) := by
    show (orError invalid (if 1 ≤ purpose.code.toNat ∧
      purpose.code.toNat - 1 < (MacPurpose.all.map (references rows)).length then
      some (purpose.code.toNat - 1) else none) >>= _) = _
    rw [hindex]
    show (readAt _ (MacPurpose.index purpose) >>= _) = _
    rw [readAt_map]
    rfl
  rw [hstep, writeAt_map, ← references_concat]
  refine (((decides_reject (refused_error _)).congr hfull).bind fun _ _ _ =>
    ((decides_reject (refused_error _)).congr hseen).bind fun _ _ _ => decides_ok ?_).congr ?_
  · rfl
  rw [and_true, Expected, List.map_append, List.map_singleton,
    (List.perm_append_singleton row.reference _).nodup_iff, List.nodup_cons, rowCount_concat]
  constructor
  · rintro ⟨hfew, hnew⟩
    refine ⟨⟨hnew, h.1⟩, fun other => ?_⟩
    rw [Function.update_apply]
    split_ifs
    · exact hfew
    · exact h.2 other
  · rintro ⟨⟨hnew, -⟩, hfew⟩
    have hself := hfew purpose
    rw [Function.update_self] at hself
    exact ⟨hself, hnew⟩

theorem decides_expectedPurposes (rows : List StateMacKeyManifestRow) :
    Decides Refused (Expected rows)
      (fun purposes => purposes = MacPurpose.all.map (references rows))
      (expectedPurposes rows) := by
  refine decides_foldlM rfl ⟨List.nodup_nil, fun _ => Nat.zero_le _⟩ decides_expectRow
    (fun xs x h => ?_) rows
  have hsub : xs.Sublist (xs ++ [x]) := List.sublist_append_left xs [x]
  exact ⟨h.1.sublist (hsub.map _), fun purpose => (hsub.countP_le).trans (h.2 purpose)⟩

/-! ### The files -/

theorem decides_readAuthenticatedLeaf (euid : UInt32) (key : Journal.JournalIntegrityKey)
    (purpose : PurposeNode) (reference : MacKeyRef) :
    Decides Refused (∃ leaf, purpose.leaves.lookup (leafName reference) = some leaf ∧
        VerifiedLeaf euid key reference leaf) (fun _ => True)
      (readAuthenticatedLeaf euid key purpose reference) := by
  unfold readAuthenticatedLeaf
  cases hleaf : purpose.leaves.lookup (leafName reference) with
  | none =>
    refine .inr ⟨?_, invalid, refused_error _, rfl⟩
    rintro ⟨leaf, hlookup, -⟩
    cases hlookup
  | some leaf =>
    show Decides _ _ _ (reject _ _ >>= fun _ => reject _ _ >>= _)
    by_cases hmetadata : isOwnerOnlyStateKeyFile euid leaf.stat = true
    · -- an owner-only file has 106 bytes, so it is read to its end
      have hlength : leaf.content.length = 106 := by
        simp only [isOwnerOnlyStateKeyFile, Bool.and_eq_true, beq_iff_eq] at hmetadata
        obtain ⟨⟨⟨⟨hregular, -⟩, -⟩, -⟩, hsize⟩ := hmetadata
        rw [← leaf.sized hregular, hsize]
      have htake : leaf.content.take 106 = leaf.content := List.take_of_length_le hlength.le
      have hdrop : leaf.content.drop 106 = [] := List.drop_of_length_le hlength.le
      rw [hmetadata, bne_self_eq_false, bne_self_eq_false, htake, hdrop, hlength]
      show Decides _ _ _ ((decodeStateMacKeyFile key reference leaf.content).mapError _ >>= _)
      cases hdecode : decodeStateMacKeyFile key reference leaf.content with
      | ok secret => exact .inl ⟨⟨leaf, rfl, hmetadata, secret, hdecode⟩, (), rfl, trivial⟩
      | error e =>
        refine .inr ⟨?_, invalid, refused_error _, rfl⟩
        rintro ⟨leaf', hlookup, hverified⟩
        cases hlookup
        obtain ⟨secret, hsecret⟩ := hverified.authentic
        rw [hdecode] at hsecret
        cases hsecret
    · have hfalse : isOwnerOnlyStateKeyFile euid leaf.stat = false := Bool.not_eq_true _ ▸ hmetadata
      refine .inr ⟨?_, invalid, refused_error _, by rw [hfalse]; rfl⟩
      rintro ⟨leaf', hlookup, hverified⟩
      cases hlookup
      exact hmetadata hverified.metadata

/-- Opening a directory and going on with it. -/
theorem decides_openDirectory_bind {α β : Type} {stat : α → Stat} {directory : Directory α}
    {name : FileName} {ok : α → Prop} {post : β → Prop} {f : α → Verified β}
    (h : ∀ node, Decides Refused (ok node) post (f node)) :
    Decides Refused
      (∃ node, directory.lookup name = some node ∧ (stat node).isDirectory = true ∧ ok node) post
      (openDirectory stat directory name >>= f) := by
  unfold openDirectory
  cases hnode : directory.lookup name with
  | none =>
    refine .inr ⟨?_, invalid, refused_error _, rfl⟩
    rintro ⟨node, hlookup, -⟩
    cases hlookup
  | some node =>
    have hopen : (do
        let node ← orError invalid (some node)
        reject (!(stat node).isDirectory) invalid
        pure node) =
        (reject (!(stat node).isDirectory) invalid >>= fun _ => .ok node : Verified α) := rfl
    rw [hopen, bind_assoc]
    refine ((decides_reject (refused_error _)).bind fun _ _ _ => h node).congr ?_
    simp

/-! ### The directories -/

section Verifier

variable (listing : Listing) (euid : UInt32) (key : Journal.JournalIntegrityKey)

theorem decides_verifyPurposeEntries (name : FileName) (node : PurposeNode)
    (expected : List MacKeyRef) (hnodup : (expected.map leafName).Nodup)
    (hfew : expected.length ≤ 16) :
    Decides Refused (node.leaves.names.Perm (expected.map leafName) ∧ ∀ reference ∈ expected,
        ∃ leaf, node.leaves.lookup (leafName reference) = some leaf ∧
          VerifiedLeaf euid key reference leaf) (fun _ => True)
      (verifyPurposeEntries listing euid key name node expected) := by
  have hplain := plainNames_listing listing [name] node.leaves
  have hnames : Decides _ _ _ (verifyNames (expected.map leafName) 16 _) :=
    decides_verifyNames hnodup ((List.length_map _).trans_le hfew)
      (listing.order [name] node.leaves.names)
  refine (hnames.congr (?_ : _ ↔ node.leaves.names.Perm (expected.map leafName))).bind fun _ _ _ =>
    decides_forM (decides_readAuthenticatedLeaf euid key node)
  exact ⟨hplain.symm.trans, hplain.trans⟩

/-- The names of the references of a purpose are distinct. -/
theorem nodup_leafNames {rows : List StateMacKeyManifestRow} (h : Expected rows)
    (purpose : MacPurpose) : ((references rows purpose).map leafName).Nodup := by
  refine List.Nodup.map_on ?_ (h.1.sublist (List.filter_sublist.map _))
  intro reference hreference reference' hreference' hname
  have hpurpose := (mem_references.1 hreference).2
  have hpurpose' := (mem_references.1 hreference').2
  exact (leafName_inj (hpurpose.trans hpurpose'.symm)).1 hname

theorem decides_verifyPurpose (mac : MacNode) {rows : List StateMacKeyManifestRow}
    (h : Expected rows) (purpose : MacPurpose) :
    Decides Refused (∃ node, mac.purposes.lookup (purposeName purpose) = some node ∧
        VerifiedPurpose euid key (references rows purpose) node) (fun _ => True)
      (verifyPurpose listing euid key mac (MacPurpose.all.map (references rows))
        (purposeName purpose, MacPurpose.index purpose)) := by
  have hentries : ∀ node, Decides Refused (VerifiedPurpose euid key (references rows purpose) node)
      (fun _ => True) (do
        reject (!isOwnerOnlyPurposeDirectory euid node.stat) invalid
        let references ← readAt (MacPurpose.all.map (references rows)) (MacPurpose.index purpose)
        verifyPurposeEntries listing euid key (purposeName purpose) node references) := by
    intro node
    rw [readAt_map]
    refine ((decides_reject (refused_error _)).bind fun _ _ _ =>
      decides_verifyPurposeEntries listing euid key (purposeName purpose) node
        (references rows purpose) (nodup_leafNames h purpose)
        ((length_references rows purpose).trans_le (h.2 purpose))).congr ?_
    rw [Bool.not_eq_false']
    exact ⟨fun ⟨hmetadata, hnames, hleaves⟩ => ⟨hmetadata, hnames, hleaves⟩,
      fun ⟨hmetadata, hnames, hleaves⟩ => ⟨hmetadata, hnames, hleaves⟩⟩
  refine (decides_openDirectory_bind hentries).congr ?_
  constructor
  · rintro ⟨node, hnode, -, hverified⟩
    exact ⟨node, hnode, hverified⟩
  · rintro ⟨node, hnode, hverified⟩
    have hdirectory := hverified.metadata
    simp only [isOwnerOnlyPurposeDirectory, Bool.and_eq_true] at hdirectory
    exact ⟨node, hnode, hdirectory.1.1, hverified⟩

/-- **The verifier accepts the directory that the rows describe**, whatever the order of its
listings. -/
theorem decides_verifyStateMacKeyDirectory (generation : Directory MacNode)
    (rows : List StateMacKeyManifestRow) :
    Decides Refused (VerifiedDirectory euid key generation rows) (fun _ => True)
      (verifyStateMacKeyDirectory listing euid key generation rows) := by
  have hindexed : purposeNames.zipIdx =
      MacPurpose.all.map fun purpose => (purposeName purpose, MacPurpose.index purpose) := by
    decide
  unfold verifyStateMacKeyDirectory
  rw [hindexed]
  have hmac : ∀ mac, Expected rows → Decides Refused (mac.purposes.names.Perm purposeNames ∧
      ∀ purpose, ∃ node, mac.purposes.lookup (purposeName purpose) = some node ∧
        VerifiedPurpose euid key (references rows purpose) node) (fun _ => True) (do
      verifyNamespaceEntries listing mac
      (MacPurpose.all.map fun purpose => (purposeName purpose, MacPurpose.index purpose)).forM
        (verifyPurpose listing euid key mac (MacPurpose.all.map (references rows)))) := by
    intro mac h
    have hplain := plainNames_listing listing [] mac.purposes
    have hnames : Decides _ _ _ (verifyNames purposeNames 11 _) :=
      decides_verifyNames (by decide) (by decide) (listing.order [] mac.purposes.names)
    have hloop : (MacPurpose.all.map fun purpose =>
        (purposeName purpose, MacPurpose.index purpose)).forM
        (verifyPurpose listing euid key mac (MacPurpose.all.map (references rows))) =
        MacPurpose.all.forM fun purpose => verifyPurpose listing euid key mac
          (MacPurpose.all.map (references rows)) (purposeName purpose, MacPurpose.index purpose) :=
      List.forM_map
    rw [hloop]
    refine ((hnames.congr (?_ : _ ↔ mac.purposes.names.Perm purposeNames)).bind fun _ _ _ =>
      (decides_forM (decides_verifyPurpose listing euid key mac h)).congr ?_)
    · exact ⟨hplain.symm.trans, hplain.trans⟩
    · exact ⟨fun h purpose => h purpose (List.mem_of_getElem? (all_getElem?_index purpose)),
        fun h purpose _ => h purpose⟩
  refine ((decides_expectedPurposes rows).bind fun expected h hexpected =>
    hexpected ▸ decides_openDirectory_bind fun mac => hmac mac h).congr ?_
  exact ⟨fun ⟨⟨hdistinct, hfew⟩, hmac⟩ => ⟨hdistinct, hfew, hmac⟩,
    fun ⟨hdistinct, hfew, hmac⟩ => ⟨⟨hdistinct, hfew⟩, hmac⟩⟩

end Verifier

/-! ### Order does not matter -/

theorem references_perm {rows rows' : List StateMacKeyManifestRow} (h : rows.Perm rows')
    (purpose : MacPurpose) : (references rows purpose).Perm (references rows' purpose) :=
  (h.filter _).map _

theorem VerifiedDirectory.perm {euid : UInt32} {key : Journal.JournalIntegrityKey}
    {generation : Directory MacNode} {rows rows' : List StateMacKeyManifestRow}
    (h : rows.Perm rows') (hverified : VerifiedDirectory euid key generation rows) :
    VerifiedDirectory euid key generation rows' := by
  obtain ⟨hdistinct, hfew, mac, hlookup, hdirectory, hnames, hpurposes⟩ := hverified
  refine ⟨(h.map _).nodup_iff.1 hdistinct,
    fun purpose => (h.countP_eq _).symm.trans_le (hfew purpose), mac, hlookup, hdirectory, hnames,
    fun purpose => ?_⟩
  obtain ⟨node, hnode, hmetadata, hleafNames, hleaves⟩ := hpurposes purpose
  have hperm := references_perm h purpose
  exact ⟨node, hnode, hmetadata, hleafNames.trans (hperm.map _),
    fun reference hreference => hleaves reference (hperm.mem_iff.2 hreference)⟩

/-- Two computations that decide the same condition have the same outcome. -/
theorem verified_eq {ok : Prop} {x y : Verified Unit} (hx : Decides Refused ok (fun _ => True) x)
    (hy : Decides Refused ok (fun _ => True) y) : x = y := by
  have hinvalid : ∀ {e : Halt StateMacKeyDirectoryVerifierError}, Refused e → e = invalid := by
    intro e he
    cases e with
    | panic => exact absurd rfl he
    | error e => rfl
  rcases hx with ⟨hok, u, rfl, -⟩ | ⟨hno, e, he, rfl⟩ <;>
    rcases hy with ⟨hok', u', rfl, -⟩ | ⟨hno', e', he', rfl⟩
  · rfl
  · exact absurd hok hno'
  · exact absurd hok' hno
  · rw [hinvalid he, hinvalid he']

/-- **The verification of a directory**: it accepts what the rows describe, its outcome depends
neither on the order of the listings nor on the order of the rows, and the files of two keys have
two paths. -/
theorem verifyStateMacKeyDirectory_spec :
    (∀ listing euid key generation rows,
      verifyStateMacKeyDirectory listing euid key generation rows = .ok () ↔
        VerifiedDirectory euid key generation rows) ∧
    (∀ listing listing' euid key generation, ∀ rows rows' : List StateMacKeyManifestRow,
      rows.Perm rows' → verifyStateMacKeyDirectory listing euid key generation rows =
        verifyStateMacKeyDirectory listing' euid key generation rows') ∧
    Function.Injective stateMacKeyRelativePath := by
  refine ⟨fun listing euid key generation rows => ?_, fun listing listing' euid key generation rows
    rows' hperm => ?_, fun _ _ => stateMacKeyRelativePath_injective⟩
  · rw [← (decides_verifyStateMacKeyDirectory listing euid key generation rows).accepts_iff]
    exact ⟨fun h => ⟨(), h⟩, fun ⟨_, h⟩ => h⟩
  · have hsame : VerifiedDirectory euid key generation rows' ↔
        VerifiedDirectory euid key generation rows :=
      ⟨VerifiedDirectory.perm hperm.symm, VerifiedDirectory.perm hperm⟩
    exact verified_eq (decides_verifyStateMacKeyDirectory listing euid key generation rows)
      ((decides_verifyStateMacKeyDirectory listing' euid key generation rows').congr hsame)

end MsgRiver.Keys
