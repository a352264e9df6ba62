import MsgRiver.Keys.Manifest

/-!
# Snapshots of the selected keys

The cells of a snapshot are the selected origin, one high water for each purpose and the manifest
rows.  Composing decodes them all, then checks the manifest, then the high waters against it.

* `Covered`: what the check of the high waters amounts to;
* `ValidSnapshot`: the snapshots that are composed;
* `composeStateMacKeySnapshot_spec`: nothing overflows or leaves its range, exactly the valid
  snapshots are composed, and the cells of the result are the given ones.
-/

namespace MsgRiver.Keys

open MsgRiver.Core Bytes Result Verdict

/-- The largest serial of a purpose, as the database holds it. -/
structure RawStateMacKeyHighWater where
  purpose : Int64
  serialHi : Int64
  serialLo : Int64
  deriving DecidableEq

/-- The largest serial of a purpose. -/
structure StateMacKeyHighWater where
  purpose : MacPurpose
  serialHi : UInt32
  serialLo : UInt32
  deriving DecidableEq

/-! ### Rows of the high waters -/

/-- The origin that is selected, and the high waters. -/
structure StateMacKeyMetaFacts where
  selectedOrigin : ByteVec 32
  highWaters : List StateMacKeyHighWater

/-- Why the rows are not decoded. -/
inductive StateMacKeyMetaRowError
  | invalidSelectedOriginLength
  | invalidPurpose
  | limbOutOfRange
  deriving DecidableEq

/-- Decodes a row of the high waters. -/
def decodeHighWater (raw : RawStateMacKeyHighWater) :
    Except StateMacKeyMetaRowError StateMacKeyHighWater := do
  let purpose ← purposeFromI64 .invalidPurpose raw.purpose
  let serialHi ← limbFromI64 .limbOutOfRange raw.serialHi
  let serialLo ← limbFromI64 .limbOutOfRange raw.serialLo
  return ⟨purpose, serialHi, serialLo⟩

/-- `decode_state_mac_key_meta_rows`. -/
def decodeStateMacKeyMetaRows (selectedOrigin : List UInt8)
    (highWaters : List RawStateMacKeyHighWater) :
    Except StateMacKeyMetaRowError StateMacKeyMetaFacts := do
  let selectedOrigin ← orError .invalidSelectedOriginLength (toVec? 32 selectedOrigin)
  let highWaters ← highWaters.mapM decodeHighWater
  return ⟨selectedOrigin, highWaters⟩

/-! ### The check of the high waters -/

/-- Why the high waters do not fit the rows. -/
inductive StateMacKeyHighWaterError
  | duplicateHighWaterPurpose
  | missingHighWaterPurpose
  | selectedOriginSerialAboveHighWater
  deriving DecidableEq

/-- `u64::from(hi) << 32 | u64::from(lo)`. -/
def StateMacKeyHighWater.serial (highWater : StateMacKeyHighWater) : UInt64 :=
  highWater.serialHi.toUInt64 <<< 32 ||| highWater.serialLo.toUInt64

/-- One turn of the first loop: a purpose has one high water. -/
def recordHighWater (byPurpose : List (Option UInt64)) (highWater : StateMacKeyHighWater) :
    Except (Halt StateMacKeyHighWaterError) (List (Option UInt64)) := do
  let index ← purposeIndex highWater.purpose.code
  let prior ← readAt byPurpose index
  let byPurpose ← writeAt byPurpose index (some highWater.serial)
  reject prior.isSome (.error .duplicateHighWaterPurpose)
  return byPurpose

/-- One turn of the second loop: no purpose is left out. -/
def resolve (resolved : List UInt64) (indexed : Option UInt64 × ℕ) :
    Except (Halt StateMacKeyHighWaterError) (List UInt64) := do
  let value ← orError (.error .missingHighWaterPurpose) indexed.1
  writeAt resolved indexed.2 value

/-- A key of the selected origin is not above the high water of its purpose. -/
def checkSerial (selectedOrigin : ByteVec 32) (resolved : List UInt64)
    (row : StateMacKeyManifestRow) : Except (Halt StateMacKeyHighWaterError) Unit :=
  let keyId := row.reference.keyId.toList
  if keyId.take 32 ≠ selectedOrigin.toList then .ok ()
  else do
    let index ← purposeIndex row.reference.purpose.code
    let serial : UInt64 := unwire (keyId.drop 32)
    let highWater ← readAt resolved index
    reject (decide (highWater < serial)) (.error .selectedOriginSerialAboveHighWater)

/-- `validate_state_mac_key_high_water`. -/
def validateStateMacKeyHighWater (rows : List StateMacKeyManifestRow) (selectedOrigin : ByteVec 32)
    (highWaters : List StateMacKeyHighWater) : Except (Halt StateMacKeyHighWaterError) Unit := do
  let byPurpose ← highWaters.foldlM recordHighWater (List.replicate 11 none)
  let resolved ← byPurpose.zipIdx.foldlM resolve (List.replicate 11 0)
  rows.forM (checkSerial selectedOrigin resolved)

/-! ### Composing a snapshot -/

/-- The rows of a snapshot, as the database holds them. -/
structure SelectedKeySnapshotRaw where
  selectedOrigin : List UInt8
  highWaters : List RawStateMacKeyHighWater
  manifestRows : List RawStateMacKeyManifestRow
  deriving DecidableEq

/-- The rows of a snapshot that was accepted. -/
structure StateMacKeySnapshotFacts where
  selectedOrigin : ByteVec 32
  highWaters : List StateMacKeyHighWater
  manifestRows : List StateMacKeyManifestRow

/-- The error of a snapshot. -/
inductive StateMacKeySnapshotError
  | invalidSnapshot
  deriving DecidableEq

/-- `map_err(|_| InvalidSnapshot)`. -/
def Halt.invalid {ε : Type} : Halt ε → Halt StateMacKeySnapshotError
  | .panic => .panic
  | .error _ => .error .invalidSnapshot

/-- `compose_state_mac_key_snapshot`. -/
def composeStateMacKeySnapshot (raw : SelectedKeySnapshotRaw) (prebootstrapOrigin : ByteVec 32) :
    Except (Halt StateMacKeySnapshotError) StateMacKeySnapshotFacts := do
  let facts ← (decodeStateMacKeyMetaRows raw.selectedOrigin raw.highWaters).mapError
    fun _ => .error .invalidSnapshot
  let manifestRows ← (raw.manifestRows.mapM decodeStateMacKeyManifestRow).mapError
    fun _ => .error .invalidSnapshot
  (validateStateMacKeyManifest manifestRows facts.selectedOrigin prebootstrapOrigin).mapError
    Halt.invalid
  (validateStateMacKeyHighWater manifestRows facts.selectedOrigin facts.highWaters).mapError
    Halt.invalid
  return ⟨facts.selectedOrigin, facts.highWaters, manifestRows⟩

/-! ### High waters, abstractly -/

/-- What a high water says. -/
structure Water where
  purpose : ℤ
  serial : ℕ
  deriving DecidableEq

/-- The high water that a raw row stands for. -/
def RawStateMacKeyHighWater.water (raw : RawStateMacKeyHighWater) : Water :=
  ⟨raw.purpose.toInt, serialOf raw.serialHi raw.serialLo⟩

/-- The cells hold a high water. -/
structure RawStateMacKeyHighWater.Valid (raw : RawStateMacKeyHighWater) : Prop where
  purpose : InPurpose raw.purpose
  serialHi : InLimb raw.serialHi
  serialLo : InLimb raw.serialLo

namespace StateMacKeyHighWater

/-- The high water that a row stands for. -/
def water (highWater : StateMacKeyHighWater) : Water :=
  ⟨highWater.purpose.code.toNat, highWater.serial.toNat⟩

/-- The cells that hold a high water. -/
def cells (highWater : StateMacKeyHighWater) : RawStateMacKeyHighWater :=
  ⟨Int64.ofNat highWater.purpose.code.toNat, Int64.ofNat highWater.serialHi.toNat,
    Int64.ofNat highWater.serialLo.toNat⟩

theorem toNat_serial (highWater : StateMacKeyHighWater) :
    highWater.serial.toNat = highWater.serialHi.toNat * 2 ^ 32 + highWater.serialLo.toNat := by
  have hhi : highWater.serialHi.toNat < 2 ^ 32 := highWater.serialHi.toNat_lt
  have hlo : highWater.serialLo.toNat < 2 ^ 32 := highWater.serialLo.toNat_lt
  have hshift : (highWater.serialHi.toUInt64 <<< 32).toNat = highWater.serialHi.toNat <<< 32 := by
    rw [UInt64.toNat_shiftLeft, UInt32.toNat_toUInt64]
    show _ <<< 32 % 2 ^ 64 = _
    rw [Nat.shiftLeft_eq, Nat.mod_eq_of_lt]
    omega
  rw [serial, UInt64.toNat_or, hshift, UInt32.toNat_toUInt64, ← Nat.shiftLeft_add_eq_or_of_lt hlo,
    Nat.shiftLeft_eq]

end StateMacKeyHighWater

/-- One high water for each purpose, and no key of the selected origin above it. -/
structure Covered (selectedOrigin : List UInt8) (waters : List Water) (entries : List Entry) :
    Prop where
  single : ∀ purpose, 1 ≤ purpose → purpose ≤ 11 →
    (waters.countP fun water => water.purpose == purpose) = 1
  above : ∀ entry ∈ entries, entry.origin = selectedOrigin →
    ∀ water ∈ waters, water.purpose = entry.purpose → entry.serial ≤ water.serial

/-- The snapshots that are composed. -/
structure ValidSnapshot (raw : SelectedKeySnapshotRaw) (prebootstrapOrigin : ByteVec 32) :
    Prop where
  selectedOrigin : raw.selectedOrigin.length = 32
  highWaters : ∀ row ∈ raw.highWaters, row.Valid
  manifestRows : ∀ row ∈ raw.manifestRows, row.Valid
  orderly : Orderly raw.selectedOrigin prebootstrapOrigin.toList
    (raw.manifestRows.map RawStateMacKeyManifestRow.entry)
  covered : Covered raw.selectedOrigin (raw.highWaters.map RawStateMacKeyHighWater.water)
    (raw.manifestRows.map RawStateMacKeyManifestRow.entry)

/-- The cells that hold the facts. -/
def StateMacKeySnapshotFacts.cells (facts : StateMacKeySnapshotFacts) : SelectedKeySnapshotRaw :=
  ⟨facts.selectedOrigin.toList, facts.highWaters.map StateMacKeyHighWater.cells,
    facts.manifestRows.map StateMacKeyManifestRow.cells⟩

/-! ### Decoding -/

theorem decides_decodeHighWater (raw : RawStateMacKeyHighWater) :
    Decides (fun _ => True) raw.Valid
      (fun highWater => highWater.water = raw.water ∧ highWater.cells = raw)
      (decodeHighWater raw) := by
  unfold decodeHighWater
  refine ((decides_purposeFromI64 trivial _).bind fun purpose _ hpurpose =>
    (decides_limbFromI64 trivial _).bind fun serialHi _ hhi =>
    (decides_limbFromI64 trivial _).bind fun serialLo _ hlo => decides_ok ?_).congr ?_
  · constructor
    · rw [StateMacKeyHighWater.water, StateMacKeyHighWater.toNat_serial,
        RawStateMacKeyHighWater.water, serialOf, hpurpose, hhi, hlo, Int.toNat_natCast,
        Int.toNat_natCast]
    · rw [StateMacKeyHighWater.cells, ← int64_eq_ofNat hpurpose, ← int64_eq_ofNat hhi,
        ← int64_eq_ofNat hlo]
  · rw [and_true]
    constructor
    · rintro ⟨hpurpose, hhi, hlo⟩
      exact ⟨hpurpose, hhi, hlo⟩
    · rintro ⟨hpurpose, hhi, hlo⟩
      exact ⟨hpurpose, hhi, hlo⟩

/-- Lists that are related element by element through two functions. -/
theorem map_eq_of_forall₂ {α β γ : Type} {f : α → γ} {g : β → γ} {xs : List α} {ys : List β}
    (h : List.Forall₂ (fun x y => g y = f x) xs ys) : ys.map g = xs.map f := by
  induction h with
  | nil => rfl
  | cons hxy _ ih => rw [List.map_cons, List.map_cons, hxy, ih]

/-- Decoding a list of cells. -/
theorem decides_mapM_cells {α β γ ε : Type} {f : α → Except ε β} {view : α → γ} {view' : β → γ}
    {cells : β → α} {valid : α → Prop}
    (h : ∀ raw, Decides (fun _ => True) (valid raw)
      (fun row => view' row = view raw ∧ cells row = raw) (f raw)) (raws : List α) :
    Decides (fun _ => True) (∀ raw ∈ raws, valid raw)
      (fun rows => rows.map view' = raws.map view ∧ rows.map cells = raws) (raws.mapM f) := by
  refine (decides_mapM h).weaken fun rows _ hrows => ⟨?_, ?_⟩
  · exact map_eq_of_forall₂ (hrows.imp fun _ _ hrow => hrow.1)
  · have hcells : rows.map cells = raws.map id :=
      map_eq_of_forall₂ (hrows.imp fun _ _ hrow => hrow.2)
    rwa [List.map_id] at hcells

theorem decides_decodeStateMacKeyMetaRows (selectedOrigin : List UInt8)
    (highWaters : List RawStateMacKeyHighWater) :
    Decides (fun _ => True) (selectedOrigin.length = 32 ∧ ∀ row ∈ highWaters, row.Valid)
      (fun facts => facts.selectedOrigin.toList = selectedOrigin ∧
        facts.highWaters.map StateMacKeyHighWater.water =
          highWaters.map RawStateMacKeyHighWater.water ∧
        facts.highWaters.map StateMacKeyHighWater.cells = highWaters)
      (decodeStateMacKeyMetaRows selectedOrigin highWaters) := by
  unfold decodeStateMacKeyMetaRows
  refine ((decides_orError trivial).bind fun origin _ horigin =>
    (decides_mapM_cells decides_decodeHighWater highWaters).bind fun decoded _ hdecoded =>
    decides_ok ⟨toVec?_eq_some.1 horigin, hdecoded⟩).congr ?_
  rw [isSome_toVec?, and_true]

/-! ### The two loops over the high waters -/

/-- How many high waters a purpose has. -/
def waterCount (highWaters : List StateMacKeyHighWater) (purpose : MacPurpose) : ℕ :=
  highWaters.countP fun highWater => highWater.purpose == purpose

/-- The high water of a purpose. -/
def waterOf (highWaters : List StateMacKeyHighWater) (purpose : MacPurpose) : Option UInt64 :=
  (highWaters.find? fun highWater => highWater.purpose == purpose).map StateMacKeyHighWater.serial

theorem isSome_waterOf_eq_false {highWaters : List StateMacKeyHighWater} {purpose : MacPurpose} :
    (waterOf highWaters purpose).isSome = false ↔ waterCount highWaters purpose = 0 := by
  rw [waterOf, Option.isSome_map, waterCount, List.countP_eq_zero, Option.isSome_eq_false_iff,
    Option.isNone_iff_eq_none, List.find?_eq_none]

theorem waterOf_concat {highWaters : List StateMacKeyHighWater} {highWater : StateMacKeyHighWater}
    (h : waterCount highWaters highWater.purpose = 0) :
    waterOf (highWaters ++ [highWater]) =
      Function.update (waterOf highWaters) highWater.purpose (some highWater.serial) := by
  funext purpose
  rw [waterOf, List.find?_append]
  by_cases hpurpose : purpose = highWater.purpose
  · subst hpurpose
    rw [waterCount, List.countP_eq_zero] at h
    rw [Function.update_self, List.find?_eq_none.2 h, Option.none_or, List.find?_singleton,
      if_pos (beq_self_eq_true _)]
    rfl
  · have hother : (highWater.purpose == purpose) = false :=
      beq_eq_false_iff_ne.2 fun h => hpurpose h.symm
    rw [Function.update_of_ne hpurpose, List.find?_singleton, hother, if_neg Bool.noConfusion,
      Option.or_none]
    rfl

theorem waterCount_concat {highWaters : List StateMacKeyHighWater}
    {highWater : StateMacKeyHighWater} (h : ∀ purpose, waterCount highWaters purpose ≤ 1) :
    (∀ purpose, waterCount (highWaters ++ [highWater]) purpose ≤ 1) ↔
      waterCount highWaters highWater.purpose = 0 := by
  have hcount : ∀ purpose, waterCount (highWaters ++ [highWater]) purpose =
      waterCount highWaters purpose + if highWater.purpose == purpose then 1 else 0 := by
    intro purpose
    rw [waterCount, List.countP_append, List.countP_singleton, ← waterCount]
  constructor
  · intro hone
    have hself := hone highWater.purpose
    rw [hcount, if_pos (beq_self_eq_true _)] at hself
    omega
  · intro hzero purpose
    rw [hcount]
    split_ifs with hpurpose
    · rw [← eq_of_beq hpurpose, hzero]
    · exact h purpose

theorem decides_recordHighWater (highWaters : List StateMacKeyHighWater)
    (highWater : StateMacKeyHighWater) (h : ∀ purpose, waterCount highWaters purpose ≤ 1) :
    Decides Refused (∀ purpose, waterCount (highWaters ++ [highWater]) purpose ≤ 1)
      (fun byPurpose => byPurpose = MacPurpose.all.map (waterOf (highWaters ++ [highWater])))
      (recordHighWater (MacPurpose.all.map (waterOf highWaters)) highWater) := by
  rw [waterCount_concat h, recordHighWater, purposeIndex_code]
  show Decides _ _ _ (readAt _ _ >>= _)
  rw [readAt_map]
  show Decides _ _ _ (writeAt _ _ _ >>= _)
  rw [writeAt_map]
  show Decides _ _ _ (reject _ _ >>= _)
  refine (((decides_reject (refused_error _)).congr isSome_waterOf_eq_false).bind
    fun _ hzero _ => decides_ok ?_).congr (and_true _ ▸ Iff.rfl)
  rw [waterOf_concat hzero]

/-- The loop that unwraps the values. -/
theorem decides_resolve (values : List (Option UInt64)) (front : List UInt64) :
    Decides Refused (∀ value ∈ values, value.isSome = true)
      (fun resolved => resolved = front ++ values.map (·.getD 0))
      ((values.zipIdx front.length).foldlM resolve (front ++ List.replicate values.length 0)) := by
  induction values generalizing front with
  | nil => exact .inl ⟨List.forall_mem_nil _, _, rfl, rfl⟩
  | cons value values ih =>
    rw [List.zipIdx_cons, List.foldlM_cons, List.length_cons]
    cases value with
    | none =>
      refine .inr ⟨fun h => ?_, _, refused_error .missingHighWaterPurpose, rfl⟩
      cases h none List.mem_cons_self
    | some v =>
      have hlt : front.length <
          (front ++ List.replicate (values.length + 1) (0 : UInt64)).length := by
        rw [List.length_append, List.length_replicate]
        omega
      have hstep : resolve (front ++ List.replicate (values.length + 1) 0) (some v, front.length) =
          .ok ((front ++ [v]) ++ List.replicate values.length 0) := by
        show writeAt _ _ _ = _
        rw [writeAt, if_pos hlt, List.set_append_right _ _ (Nat.le_refl _), Nat.sub_self,
          List.replicate_succ, List.set_cons_zero, List.append_assoc]
        rfl
      have hrest := ih (front ++ [v])
      rw [List.length_append, List.length_singleton] at hrest
      rw [hstep]
      refine (hrest.weaken fun resolved _ hresolved => ?_).congr ?_
      · rw [hresolved, List.append_assoc]
        rfl
      · rw [List.forall_mem_cons, Option.isSome_some, eq_self_iff_true, true_and]

/-- The rows of the selected origin against the high waters. -/
theorem decides_checkSerial (selectedOrigin : ByteVec 32) (waters : MacPurpose → UInt64)
    (row : StateMacKeyManifestRow) :
    Decides Refused (row.origin = selectedOrigin.toList →
        row.serial ≤ (waters row.reference.purpose).toNat) (fun _ => True)
      (checkSerial selectedOrigin (MacPurpose.all.map waters) row) := by
  show Decides _ _ _ (if row.origin ≠ selectedOrigin.toList then _ else _)
  by_cases horigin : row.origin = selectedOrigin.toList
  · have hserial : decide (waters row.reference.purpose <
        (unwire (row.reference.keyId.toList.drop 32) : UInt64)) = false ↔
        row.serial ≤ (waters row.reference.purpose).toNat := by
      have hlength : (row.reference.keyId.toList.drop 32).length = 8 := by
        rw [List.length_drop, row.reference.keyId.toList_length]
      have hvalue : (unwire (row.reference.keyId.toList.drop 32) : UInt64).toNat = row.serial := by
        refine UInt64.toNat_ofNat_of_lt' ?_
        have hlt := value_lt (row.reference.keyId.toList.drop 32)
        rwa [hlength] at hlt
      rw [decide_eq_false_iff_not, UInt64.lt_iff_toNat_lt, hvalue, Nat.not_lt]
    rw [if_neg (not_not.2 horigin), purposeIndex_code]
    show Decides _ _ _ (readAt _ _ >>= _)
    rw [readAt_map]
    exact ((decides_reject (refused_error _)).congr hserial).congr
      ⟨fun h _ => h, fun h => h horigin⟩
  · rw [if_pos horigin]
    exact (decides_ok trivial).congr (iff_of_true trivial fun h => absurd h horigin)

/-! ### The high waters of a snapshot -/

/-- A purpose with one high water. -/
theorem exists_water {highWaters : List StateMacKeyHighWater} {purpose : MacPurpose}
    (h : waterCount highWaters purpose = 1) :
    ∃ highWater, waterOf highWaters purpose = some highWater.serial ∧
      ∀ other, other ∈ highWaters ∧ other.purpose = purpose ↔ other = highWater := by
  rw [waterCount, List.countP_eq_length_filter] at h
  obtain ⟨highWater, hfilter⟩ := List.length_eq_one_iff.1 h
  refine ⟨highWater, ?_, fun other => ?_⟩
  · rw [waterOf, ← List.head?_filter, hfilter]
    rfl
  · have hmem : other ∈ [highWater] ↔ other ∈ highWaters ∧ other.purpose = purpose := by
      rw [← hfilter, List.mem_filter, beq_iff_eq]
    rw [← hmem, List.mem_singleton]

theorem isSome_waterOf {highWaters : List StateMacKeyHighWater} {purpose : MacPurpose} :
    (waterOf highWaters purpose).isSome = true ↔ waterCount highWaters purpose ≠ 0 := by
  rw [← not_iff_not, not_not, Bool.not_eq_true, isSome_waterOf_eq_false]

theorem countP_water (highWaters : List StateMacKeyHighWater) (purpose : MacPurpose) :
    ((highWaters.map StateMacKeyHighWater.water).countP fun water =>
      water.purpose == (purpose.code.toNat : ℤ)) = waterCount highWaters purpose := by
  rw [List.countP_map]
  refine List.countP_congr fun highWater _ => ?_
  rw [Function.comp_apply, beq_iff_eq, beq_iff_eq]
  exact code_inj

/-- **The check of the high waters**, without an index out of range. -/
theorem decides_validateStateMacKeyHighWater (rows : List StateMacKeyManifestRow)
    (selectedOrigin : ByteVec 32) (highWaters : List StateMacKeyHighWater) :
    Decides Refused (Covered selectedOrigin.toList (highWaters.map StateMacKeyHighWater.water)
        (rows.map StateMacKeyManifestRow.entry)) (fun _ => True)
      (validateStateMacKeyHighWater rows selectedOrigin highWaters) := by
  have hloop := @decides_foldlM _ _ _ Refused _ (List.replicate 11 none) _
    (fun highWaters => MacPurpose.all.map (waterOf highWaters)) rfl (fun _ => Nat.zero_le _)
    decides_recordHighWater (fun xs x h purpose =>
      (List.Sublist.countP_le (List.sublist_append_left xs [x])).trans (h purpose)) highWaters
  -- the second loop succeeds exactly when no entry is empty
  have hresolve : Decides Refused (∀ purpose, waterCount highWaters purpose ≠ 0)
      (fun resolved => resolved =
        MacPurpose.all.map fun purpose => (waterOf highWaters purpose).getD 0)
      ((MacPurpose.all.map (waterOf highWaters)).zipIdx.foldlM resolve (List.replicate 11 0)) := by
    have hall := decides_resolve (MacPurpose.all.map (waterOf highWaters)) []
    refine (hall.weaken fun resolved _ hresolved => ?_).congr ?_
    · rw [hresolved, List.nil_append, List.map_map]
      rfl
    · rw [List.forall_mem_map]
      exact ⟨fun h purpose => isSome_waterOf.1
        (h purpose (List.mem_of_getElem? (all_getElem?_index purpose))),
        fun h purpose _ => isSome_waterOf.2 (h purpose)⟩
  refine (hloop.bind fun byPurpose hone hbyPurpose => hbyPurpose ▸
    hresolve.bind fun resolved _ hresolved => hresolved ▸
    decides_forM (decides_checkSerial selectedOrigin _)).congr ?_
  constructor
  · rintro ⟨hle, hne, habove⟩
    have hone : ∀ purpose, waterCount highWaters purpose = 1 :=
      fun purpose => Nat.le_antisymm (hle purpose) (Nat.one_le_iff_ne_zero.2 (hne purpose))
    refine ⟨fun n hn hn' => ?_, ?_⟩
    · obtain ⟨purpose, rfl⟩ := exists_code hn hn'
      rw [countP_water, hone]
    · rw [List.forall_mem_map]
      intro row hrow horigin
      rw [List.forall_mem_map]
      intro highWater hmem hpurpose
      obtain ⟨found, hfound, hunique⟩ := exists_water (hone row.reference.purpose)
      obtain rfl := (hunique highWater).1 ⟨hmem, code_inj.1 hpurpose⟩
      have hserial := habove row hrow horigin
      rwa [hfound] at hserial
  · intro h
    have hone : ∀ purpose, waterCount highWaters purpose = 1 := by
      intro purpose
      obtain ⟨hn, hn'⟩ := code_range purpose
      rw [← countP_water]
      exact h.single _ hn hn'
    refine ⟨fun purpose => (hone purpose).le, fun purpose => ?_, fun row hrow horigin => ?_⟩
    · rw [hone]
      exact Nat.one_ne_zero
    · obtain ⟨found, hfound, hunique⟩ := exists_water (hone row.reference.purpose)
      obtain ⟨hmem, hpurpose⟩ := (hunique found).2 rfl
      rw [hfound]
      exact h.above row.entry (List.mem_map_of_mem hrow) horigin found.water
        (List.mem_map_of_mem hmem) (code_inj.2 hpurpose)

/-! ### Snapshots -/

theorem refused_invalid {ε : Type} {halt : Halt ε} (h : Refused halt) : Refused halt.invalid := by
  cases halt with
  | panic => exact absurd rfl h
  | error e => exact refused_error _

theorem decides_composeStateMacKeySnapshot (raw : SelectedKeySnapshotRaw)
    (prebootstrapOrigin : ByteVec 32) :
    Decides Refused (ValidSnapshot raw prebootstrapOrigin) (fun facts => facts.cells = raw)
      (composeStateMacKeySnapshot raw prebootstrapOrigin) := by
  let entries := raw.manifestRows.map RawStateMacKeyManifestRow.entry
  have hinvalid : Refused (.error StateMacKeySnapshotError.invalidSnapshot) := refused_error _
  have hdecode := (decides_decodeStateMacKeyMetaRows raw.selectedOrigin raw.highWaters).mapError
    fun _ _ => hinvalid
  have hrows := (decides_mapM_cells decides_decodeStateMacKeyManifestRow raw.manifestRows).mapError
    fun _ _ => hinvalid
  unfold composeStateMacKeySnapshot
  refine (hdecode.bind fun facts _ hfacts => hrows.bind fun rows _ hdecoded =>
    (((decides_validateStateMacKeyManifest rows _ _).mapError fun _ => refused_invalid).congr
      (?_ : _ ↔ Orderly raw.selectedOrigin prebootstrapOrigin.toList entries)).bind fun _ _ _ =>
    (((decides_validateStateMacKeyHighWater rows _ _).mapError fun _ => refused_invalid).congr
      (?_ : _ ↔ Covered raw.selectedOrigin (raw.highWaters.map RawStateMacKeyHighWater.water)
        entries)).bind
    fun _ _ _ => decides_ok ?_).congr ?_
  · rw [hfacts.1, hdecoded.1]
  · rw [hfacts.1, hfacts.2.1, hdecoded.1]
  · rw [StateMacKeySnapshotFacts.cells, hfacts.1, hfacts.2.2, hdecoded.2]
  · rw [and_true]
    constructor
    · rintro ⟨⟨horigin, hwaters⟩, hrows, horderly, hcovered⟩
      exact ⟨horigin, hwaters, hrows, horderly, hcovered⟩
    · rintro ⟨horigin, hwaters, hrows, horderly, hcovered⟩
      exact ⟨⟨horigin, hwaters⟩, hrows, horderly, hcovered⟩

/-- **Composing a snapshot** never stops the process, succeeds exactly for the valid snapshots, and
answers the rows of the cells in their order. -/
theorem composeStateMacKeySnapshot_spec (raw : SelectedKeySnapshotRaw)
    (prebootstrapOrigin : ByteVec 32) :
    composeStateMacKeySnapshot raw prebootstrapOrigin ≠ .error .panic ∧
    ((∃ facts, composeStateMacKeySnapshot raw prebootstrapOrigin = .ok facts) ↔
      ValidSnapshot raw prebootstrapOrigin) ∧
    ∀ facts, composeStateMacKeySnapshot raw prebootstrapOrigin = .ok facts → facts.cells = raw := by
  have h := decides_composeStateMacKeySnapshot raw prebootstrapOrigin
  exact ⟨fun hpanic => h.of_eq_error hpanic rfl, h.accepts_iff, fun _ => h.post_of_eq_ok⟩

end MsgRiver.Keys
