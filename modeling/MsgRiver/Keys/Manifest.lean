import Mathlib.Data.List.Chain
import MsgRiver.Core.Mac
import MsgRiver.Lib.Verdict

/-!
# The manifest of MAC keys

A manifest row names a key by its purpose, the origin that made it and a serial.  The rows come from
cells of a database and are decoded one by one; then one loop checks their order and counts them,
with two arrays of byte counters indexed by the purpose.

* `Entry`: what a row says, whether it is still in cells or decoded;
* `Orderly`: what the loop checks, without the counters;
* `decides_validateStateMacKeyManifest`: the loop accepts the orderly manifests; no counter
  overflows and no index is out of range.
-/

namespace MsgRiver.Keys

open MsgRiver.Core Bytes Result Verdict

/-- A computation that may also stop the process, by an overflow or an index out of range. -/
inductive Halt (ε : Type)
  | panic
  | error (e : ε)

/-- The computation stops with an error, not with the process. -/
def Refused {ε : Type} (halt : Halt ε) : Prop := halt ≠ .panic

theorem refused_error {ε : Type} (e : ε) : Refused (.error e) := by
  intro h
  cases h

/-! ### Rows -/

/-- A row as the database holds it. -/
structure RawStateMacKeyManifestRow where
  purpose : Int64
  origin : List UInt8
  serialHi : Int64
  serialLo : Int64
  status : Int64
  createdAt : Int64
  deriving DecidableEq

/-- Whether new tags are made under the key. -/
inductive StateMacKeyManifestStatus
  | active
  | retained
  deriving DecidableEq

/-- A key of the manifest. -/
structure StateMacKeyManifestRow where
  reference : MacKeyRef
  status : StateMacKeyManifestStatus
  createdAt : Int64
  deriving DecidableEq

/-- Why a row is not decoded. -/
inductive StateMacKeyManifestRowError
  | invalidPurpose
  | invalidStatus
  | invalidOriginLength
  | limbOutOfRange
  | zeroSerial
  deriving DecidableEq

/-- The purpose with a code. -/
def purposeFromI64 {ε : Type} (invalidPurpose : ε) (value : Int64) : Except ε MacPurpose :=
  if value = 1 then .ok .apiKeyVerifyV1
  else if value = 2 then .ok .idempotencyLookupV1
  else if value = 3 then .ok .idempotencyFingerprintV1
  else if value = 4 then .ok .replayLookupV1
  else if value = 5 then .ok .replayFingerprintV1
  else if value = 6 then .ok .commandLookupV1
  else if value = 7 then .ok .commandSemanticFingerprintV1
  else if value = 8 then .ok .commandPhaseFingerprintV1
  else if value = 9 then .ok .retryJitterV1
  else if value = 10 then .ok .artifactInternalAuthV1
  else if value = 11 then .ok .portableReservationV1
  else .error invalidPurpose

/-- The status of a number. -/
def statusFromI64 (value : Int64) : Except StateMacKeyManifestRowError StateMacKeyManifestStatus :=
  if value = 1 then .ok .active
  else if value = 2 then .ok .retained
  else .error .invalidStatus

/-- `u32::try_from`. -/
def limbFromI64 {ε : Type} (limbOutOfRange : ε) (value : Int64) : Except ε UInt32 :=
  if 0 ≤ value.toInt ∧ value.toInt < 2 ^ 32 then .ok (UInt32.ofNat value.toInt.toNat)
  else .error limbOutOfRange

/-- The key identity with an origin and the two halves of a serial. -/
def keyIdOf (origin : ByteVec 32) (serialHi serialLo : UInt32) : MacKeyId :=
  ⟨origin.toList ++ wire serialHi ++ wire serialLo, by simp⟩

/-- `decode_state_mac_key_manifest_row`. -/
def decodeStateMacKeyManifestRow (raw : RawStateMacKeyManifestRow) :
    Except StateMacKeyManifestRowError StateMacKeyManifestRow := do
  let purpose ← purposeFromI64 .invalidPurpose raw.purpose
  let status ← statusFromI64 raw.status
  let origin ← orError .invalidOriginLength (toVec? 32 raw.origin)
  let serialHi ← limbFromI64 .limbOutOfRange raw.serialHi
  let serialLo ← limbFromI64 .limbOutOfRange raw.serialLo
  reject (serialHi == 0 && serialLo == 0) .zeroSerial
  return ⟨⟨purpose, keyIdOf origin serialHi serialLo⟩, status, raw.createdAt⟩

/-! ### Entries -/

/-- What a manifest row says. -/
structure Entry where
  purpose : ℤ
  origin : List UInt8
  serial : ℕ
  active : Bool
  deriving DecidableEq

/-- The number in two cells. -/
def serialOf (serialHi serialLo : Int64) : ℕ := serialHi.toInt.toNat * 2 ^ 32 + serialLo.toInt.toNat

/-- The entry that a raw row stands for. -/
def RawStateMacKeyManifestRow.entry (raw : RawStateMacKeyManifestRow) : Entry :=
  ⟨raw.purpose.toInt, raw.origin, serialOf raw.serialHi raw.serialLo, raw.status == 1⟩

/-- The cell that holds a status. -/
def StateMacKeyManifestStatus.cell : StateMacKeyManifestStatus → Int64
  | .active => 1
  | .retained => 2

namespace StateMacKeyManifestRow

/-- The origin of a key, the first 32 bytes of its identity. -/
def origin (row : StateMacKeyManifestRow) : List UInt8 := row.reference.keyId.toList.take 32

/-- The serial of a key, the last eight bytes of its identity. -/
def serial (row : StateMacKeyManifestRow) : ℕ := value (row.reference.keyId.toList.drop 32)

/-- New tags are made under the key. -/
def active (row : StateMacKeyManifestRow) : Bool := row.status == .active

/-- The entry that a row stands for. -/
def entry (row : StateMacKeyManifestRow) : Entry :=
  ⟨row.reference.purpose.code.toNat, row.origin, row.serial, row.active⟩

/-- The cells that hold a row. -/
def cells (row : StateMacKeyManifestRow) : RawStateMacKeyManifestRow :=
  ⟨Int64.ofNat row.reference.purpose.code.toNat, row.origin, Int64.ofNat (row.serial / 2 ^ 32),
    Int64.ofNat (row.serial % 2 ^ 32), row.status.cell, row.createdAt⟩

end StateMacKeyManifestRow

/-- The code of a purpose. -/
def InPurpose (value : Int64) : Prop := 1 ≤ value.toInt ∧ value.toInt ≤ 11

/-- Half of a serial. -/
def InLimb (value : Int64) : Prop := 0 ≤ value.toInt ∧ value.toInt < 2 ^ 32

/-- The cells hold a row. -/
structure RawStateMacKeyManifestRow.Valid (raw : RawStateMacKeyManifestRow) : Prop where
  purpose : InPurpose raw.purpose
  status : raw.status = 1 ∨ raw.status = 2
  origin : raw.origin.length = 32
  serialHi : InLimb raw.serialHi
  serialLo : InLimb raw.serialLo
  serial : serialOf raw.serialHi raw.serialLo ≠ 0

/-! ### Decoding a row -/

section Decoding

variable {ε : Type} {R : ε → Prop}

theorem int64_eq_ofNat {value : Int64} {n : ℕ} (h : value.toInt = n) : value = Int64.ofNat n := by
  rw [← Int64.toInt_inj]
  have hbound := value.toInt_lt
  rw [Int64.toInt_ofNat_of_lt (by omega), h]

theorem code_range (purpose : MacPurpose) :
    (1 : ℤ) ≤ purpose.code.toNat ∧ (purpose.code.toNat : ℤ) ≤ 11 := by
  cases purpose <;> decide

theorem exists_code {n : ℤ} (h : 1 ≤ n) (h' : n ≤ 11) :
    ∃ purpose : MacPurpose, (purpose.code.toNat : ℤ) = n := by
  have hcodes : ∀ i : Fin 11, ∃ purpose ∈ MacPurpose.all, purpose.code.toNat = i.val + 1 := by
    decide
  obtain ⟨purpose, -, hpurpose⟩ := hcodes ⟨n.toNat - 1, by omega⟩
  exact ⟨purpose, by rw [hpurpose]; simp only; omega⟩

theorem toInt_code (purpose : MacPurpose) :
    (Int64.ofNat purpose.code.toNat).toInt = purpose.code.toNat := by
  have hrange := code_range purpose
  exact Int64.toInt_ofNat_of_lt (by omega)

theorem purposeFromI64_code (e : ε) (purpose : MacPurpose) :
    purposeFromI64 e (Int64.ofNat purpose.code.toNat) = .ok purpose := by
  cases purpose <;> rfl

/-- Behind the eleven codes there is the error. -/
theorem purposeFromI64_ne {e : ε} {value : Int64}
    (h : ∀ purpose : MacPurpose, value ≠ Int64.ofNat purpose.code.toNat) :
    purposeFromI64 e value = .error e := by
  unfold purposeFromI64
  iterate 11 rw [if_neg]
  · exact h .portableReservationV1
  · exact h .artifactInternalAuthV1
  · exact h .retryJitterV1
  · exact h .commandPhaseFingerprintV1
  · exact h .commandSemanticFingerprintV1
  · exact h .commandLookupV1
  · exact h .replayFingerprintV1
  · exact h .replayLookupV1
  · exact h .idempotencyFingerprintV1
  · exact h .idempotencyLookupV1
  · exact h .apiKeyVerifyV1

theorem decides_purposeFromI64 {e : ε} (he : R e) (value : Int64) :
    Decides R (InPurpose value) (fun purpose => value.toInt = purpose.code.toNat)
      (purposeFromI64 e value) := by
  by_cases hpurpose : InPurpose value
  · obtain ⟨purpose, hcode⟩ := exists_code hpurpose.1 hpurpose.2
    obtain rfl := int64_eq_ofNat hcode.symm
    exact .inl ⟨hpurpose, purpose, purposeFromI64_code e purpose, toInt_code purpose⟩
  · refine .inr ⟨hpurpose, e, he, purposeFromI64_ne ?_⟩
    rintro purpose rfl
    rw [InPurpose, toInt_code] at hpurpose
    exact hpurpose (code_range purpose)

theorem decides_limbFromI64 {e : ε} (he : R e) (value : Int64) :
    Decides R (InLimb value) (fun limb => value.toInt = limb.toNat) (limbFromI64 e value) := by
  unfold limbFromI64
  by_cases h : 0 ≤ value.toInt ∧ value.toInt < 2 ^ 32
  · rw [if_pos h]
    refine .inl ⟨h, _, rfl, ?_⟩
    have hlt : value.toInt.toNat < UInt32.size := by
      show _ < 2 ^ 32
      omega
    simp only [UInt32.toNat_ofNat_of_lt' hlt]
    omega
  · rw [if_neg h]
    exact .inr ⟨h, e, he, rfl⟩

theorem decides_statusFromI64 (value : Int64) :
    Decides (fun _ => True) (value = 1 ∨ value = 2)
      (fun status => (value == 1) = (status == .active) ∧
        value = status.cell) (statusFromI64 value) := by
  unfold statusFromI64
  split_ifs with h1 h2
  · subst h1
    exact .inl ⟨.inl rfl, .active, rfl, rfl, rfl⟩
  · subst h2
    exact .inl ⟨.inr rfl, .retained, rfl, rfl, rfl⟩
  · exact .inr ⟨not_or.2 ⟨h1, h2⟩, _, trivial, rfl⟩

theorem isSome_toVec? {n : ℕ} {bs : List UInt8} : (toVec? n bs).isSome = true ↔ bs.length = n := by
  unfold toVec?
  split_ifs with h
  · exact iff_of_true rfl h
  · exact iff_of_false Bool.noConfusion h

/-- The parts of a key identity. -/
theorem keyIdOf_parts (origin : ByteVec 32) (serialHi serialLo : UInt32) :
    (keyIdOf origin serialHi serialLo).toList.take 32 = origin.toList ∧
      value ((keyIdOf origin serialHi serialLo).toList.drop 32) =
        serialHi.toNat * 2 ^ 32 + serialLo.toNat := by
  have hlist : (keyIdOf origin serialHi serialLo).toList =
      origin.toList ++ (wire serialHi ++ wire serialLo) := by
    show origin.toList ++ wire serialHi ++ wire serialLo = _
    rw [List.append_assoc]
  have hvalue : ∀ x : UInt32, value (wire x) = x.toNat := by
    intro x
    rw [wire, value_digits]
    exact Nat.mod_eq_of_lt x.toNat_lt
  rw [hlist, List.take_left' origin.toList_length, List.drop_left' origin.toList_length,
    value_append, hvalue, hvalue, length_wire_u32]
  exact ⟨rfl, rfl⟩

/-- **A row is decoded when its cells hold one**, and the cells of the decoded row are these. -/
theorem decides_decodeStateMacKeyManifestRow (raw : RawStateMacKeyManifestRow) :
    Decides (fun _ => True) raw.Valid (fun row => row.entry = raw.entry ∧ row.cells = raw)
      (decodeStateMacKeyManifestRow raw) := by
  have hzero : ∀ {serialHi serialLo : UInt32}, raw.serialHi.toInt = serialHi.toNat →
      raw.serialLo.toInt = serialLo.toNat →
      serialOf raw.serialHi raw.serialLo = serialHi.toNat * 2 ^ 32 + serialLo.toNat := by
    intro serialHi serialLo hhi hlo
    rw [serialOf, hhi, hlo, Int.toNat_natCast, Int.toNat_natCast]
  have hreject : ∀ {serialHi serialLo : UInt32}, raw.serialHi.toInt = serialHi.toNat →
      raw.serialLo.toInt = serialLo.toNat →
      ((serialHi == 0 && serialLo == 0) = false ↔ serialOf raw.serialHi raw.serialLo ≠ 0) := by
    intro serialHi serialLo hhi hlo
    rw [hzero hhi hlo, Bool.and_eq_false_iff, beq_eq_false_iff_ne, beq_eq_false_iff_ne, ne_eq,
      ne_eq, ← UInt32.toNat_inj, ← UInt32.toNat_inj]
    show ¬ serialHi.toNat = 0 ∨ ¬ serialLo.toNat = 0 ↔ _
    omega
  unfold decodeStateMacKeyManifestRow
  refine ((decides_purposeFromI64 trivial _).bind fun purpose _ hpurpose =>
    (decides_statusFromI64 _).bind fun status _ hstatus =>
    (decides_orError trivial).bind fun origin _ horigin =>
    (decides_limbFromI64 trivial _).bind fun serialHi _ hhi =>
    (decides_limbFromI64 trivial _).bind fun serialLo _ hlo =>
    ((decides_reject trivial).congr (hreject hhi hlo)).bind fun _ _ _ => decides_ok ?_).congr ?_
  · obtain ⟨horiginOf, hserialOf⟩ := keyIdOf_parts origin serialHi serialLo
    rw [toVec?_eq_some.1 horigin] at horiginOf
    rw [← hzero hhi hlo] at hserialOf
    constructor
    · simp only [StateMacKeyManifestRow.entry, RawStateMacKeyManifestRow.entry,
        StateMacKeyManifestRow.origin, StateMacKeyManifestRow.serial, StateMacKeyManifestRow.active,
        horiginOf, hserialOf, hpurpose, hstatus.1]
    · have hserial : serialOf raw.serialHi raw.serialLo / 2 ^ 32 = serialHi.toNat ∧
          serialOf raw.serialHi raw.serialLo % 2 ^ 32 = serialLo.toNat := by
        rw [hzero hhi hlo]
        have hlt := serialLo.toNat_lt
        omega
      simp only [StateMacKeyManifestRow.cells, StateMacKeyManifestRow.origin,
        StateMacKeyManifestRow.serial, horiginOf, hserialOf, hserial.1, hserial.2,
        ← int64_eq_ofNat hpurpose, ← int64_eq_ofNat hhi, ← int64_eq_ofNat hlo,
        ← hstatus.2]
  · rw [isSome_toVec?, and_true]
    constructor
    · rintro ⟨hpurpose, hstatus, horigin, hhi, hlo, hserial⟩
      exact ⟨hpurpose, hstatus, horigin, hhi, hlo, hserial⟩
    · rintro ⟨hpurpose, hstatus, horigin, hhi, hlo, hserial⟩
      exact ⟨hpurpose, hstatus, horigin, hhi, hlo, hserial⟩

end Decoding

/-! ### The checks of a manifest -/

/-- Why a manifest is not accepted. -/
inductive StateMacKeyManifestError
  | outOfOrderOrDuplicate
  | tooManyRowsForPurpose
  | missingActivePurpose
  | multipleActiveRowsForPurpose
  | activeOriginMismatch
  deriving DecidableEq

section Counters

variable {ε : Type}

/-- `counts[i]`. -/
def readAt {α : Type} (counts : List α) (i : ℕ) : Except (Halt ε) α := orError .panic counts[i]?

/-- `counts[i] = value`. -/
def writeAt {α : Type} (counts : List α) (i : ℕ) (value : α) : Except (Halt ε) (List α) :=
  if i < counts.length then .ok (counts.set i value) else .error .panic

/-- `counts[i] += 1`. -/
def bump (counts : List UInt8) (i : ℕ) : Except (Halt ε) (List UInt8) := do
  let count ← readAt counts i
  let next ← orError .panic (ofNat? (count.toNat + 1))
  writeAt counts i next

/-- `usize::from(purpose as u8 - 1)`. -/
def purposeIndex (purpose : UInt8) : Except (Halt ε) ℕ :=
  if purpose = 0 then .error .panic else .ok (purpose.toNat - 1)

end Counters

/-- What the loop carries from row to row. -/
structure ManifestScan where
  previous : Option (UInt8 × MacKeyId)
  rowsPerPurpose : List UInt8
  activePerPurpose : List UInt8

/-- The order of a row, as the loop compares it. -/
def StateMacKeyManifestRow.order (row : StateMacKeyManifestRow) : UInt8 × MacKeyId :=
  (row.reference.purpose.code, row.reference.keyId)

/-- `order <= prior`. -/
def orderLe (order prior : UInt8 × MacKeyId) : Bool :=
  decide (order.1 < prior.1 ∨ order.1 = prior.1 ∧ ¬ prior.2.toList < order.2.toList)

/-- One turn of the loop over the rows. -/
def scanRow (selectedOrigin prebootstrapOrigin : ByteVec 32) (scan : ManifestScan)
    (row : StateMacKeyManifestRow) : Except (Halt StateMacKeyManifestError) ManifestScan := do
  let order := row.order
  reject (scan.previous.any fun prior => orderLe order prior) (.error .outOfOrderOrDuplicate)
  let index ← purposeIndex order.1
  let rowsPerPurpose ← bump scan.rowsPerPurpose index
  reject (decide (16 < (← readAt rowsPerPurpose index))) (.error .tooManyRowsForPurpose)
  if row.status = .active then
    let activePerPurpose ← bump scan.activePerPurpose index
    reject (decide (1 < (← readAt activePerPurpose index))) (.error .multipleActiveRowsForPurpose)
    let expectedOrigin := if order.1 = 11 then prebootstrapOrigin else selectedOrigin
    reject (order.2.toList.take 32 != expectedOrigin.toList) (.error .activeOriginMismatch)
    return ⟨some order, rowsPerPurpose, activePerPurpose⟩
  else return ⟨some order, rowsPerPurpose, scan.activePerPurpose⟩

/-- `validate_state_mac_key_manifest`. -/
def validateStateMacKeyManifest (rows : List StateMacKeyManifestRow)
    (selectedOrigin prebootstrapOrigin : ByteVec 32) :
    Except (Halt StateMacKeyManifestError) Unit := do
  let scan ← rows.foldlM (scanRow selectedOrigin prebootstrapOrigin)
    ⟨none, List.replicate 11 0, List.replicate 11 0⟩
  reject (scan.activePerPurpose.any (· != 1)) (.error .missingActivePurpose)

/-! ### Counters -/

/-- The counters of a count for each purpose. -/
def tally (count : MacPurpose → ℕ) : List UInt8 := MacPurpose.all.map fun p => UInt8.ofNat (count p)

/-- The place of a purpose in an array. -/
def MacPurpose.index (purpose : MacPurpose) : ℕ := purpose.code.toNat - 1

theorem purposeIndex_code {ε : Type} (purpose : MacPurpose) :
    (purposeIndex purpose.code : Except (Halt ε) ℕ) = .ok (MacPurpose.index purpose) := by
  cases purpose <;> rfl

theorem all_getElem?_index (purpose : MacPurpose) :
    MacPurpose.all[MacPurpose.index purpose]? = some purpose := by
  cases purpose <;> rfl

theorem readAt_map {ε α : Type} (f : MacPurpose → α) (purpose : MacPurpose) :
    (readAt (MacPurpose.all.map f) (MacPurpose.index purpose) : Except (Halt ε) α) =
      .ok (f purpose) := by
  rw [readAt, List.getElem?_map, all_getElem?_index]
  rfl

theorem writeAt_map {ε α : Type} (f : MacPurpose → α) (purpose : MacPurpose) (value : α) :
    (writeAt (MacPurpose.all.map f) (MacPurpose.index purpose) value : Except (Halt ε) (List α)) =
      .ok (MacPurpose.all.map (Function.update f purpose value)) := by
  cases purpose <;> rfl

theorem toNat_ofNat {n : ℕ} (h : n < 256) : (UInt8.ofNat n).toNat = n :=
  UInt8.toNat_ofNat_of_lt' h

theorem bump_tally {ε : Type} (count : MacPurpose → ℕ) (purpose : MacPurpose)
    (h : count purpose < 255) :
    (bump (tally count) (MacPurpose.index purpose) : Except (Halt ε) (List UInt8)) =
      .ok (tally (Function.update count purpose (count purpose + 1))) := by
  have hnext : (ofNat? ((UInt8.ofNat (count purpose)).toNat + 1) : Option UInt8) =
      some (UInt8.ofNat (count purpose + 1)) := by
    rw [ofNat?_eq_some]
    show (UInt8.ofNat (count purpose + 1)).toNat = _
    rw [toNat_ofNat (by omega), toNat_ofNat (by omega)]
  have htally : (fun p => UInt8.ofNat (Function.update count purpose (count purpose + 1) p)) =
      Function.update (fun p => UInt8.ofNat (count p)) purpose
        (UInt8.ofNat (count purpose + 1)) := by
    funext p
    by_cases hp : p = purpose
    · rw [hp, Function.update_self, Function.update_self]
    · rw [Function.update_of_ne hp, Function.update_of_ne hp]
  rw [bump, tally, readAt_map]
  show (orError Halt.panic (ofNat? ((UInt8.ofNat (count purpose)).toNat + 1)) >>= _) = _
  rw [hnext]
  show writeAt _ _ _ = _
  rw [writeAt_map, tally, htally]

/-! ### The loop -/

section Scan

variable {selectedOrigin prebootstrapOrigin : ByteVec 32}

/-- How many rows a purpose has. -/
def rowCount (rows : List StateMacKeyManifestRow) (purpose : MacPurpose) : ℕ :=
  rows.countP fun row => row.reference.purpose == purpose

/-- How many active rows a purpose has. -/
def activeCount (rows : List StateMacKeyManifestRow) (purpose : MacPurpose) : ℕ :=
  rows.countP fun row => row.reference.purpose == purpose && row.active

/-- What the loop carries after the rows. -/
def scanOf (rows : List StateMacKeyManifestRow) : ManifestScan :=
  ⟨rows.getLast?.map StateMacKeyManifestRow.order, tally (rowCount rows), tally (activeCount rows)⟩

/-- The origin of the active key of a purpose. -/
def expectedOrigin (selectedOrigin prebootstrapOrigin : ByteVec 32) (purpose : MacPurpose) :
    List UInt8 :=
  if purpose = .portableReservationV1 then prebootstrapOrigin.toList else selectedOrigin.toList

/-- The rows are in order. -/
def RowBefore (row next : StateMacKeyManifestRow) : Prop := orderLe next.order row.order = false

/-- What the loop has checked about the rows. -/
structure Scanned (selectedOrigin prebootstrapOrigin : ByteVec 32)
    (rows : List StateMacKeyManifestRow) : Prop where
  chain : rows.IsChain RowBefore
  few : ∀ purpose, rowCount rows purpose ≤ 16
  single : ∀ purpose, activeCount rows purpose ≤ 1
  origins : ∀ row ∈ rows, row.active = true →
    row.origin = expectedOrigin selectedOrigin prebootstrapOrigin row.reference.purpose

theorem rowCount_concat (rows : List StateMacKeyManifestRow) (row : StateMacKeyManifestRow) :
    rowCount (rows ++ [row]) = Function.update (rowCount rows) row.reference.purpose
      (rowCount rows row.reference.purpose + 1) := by
  funext purpose
  rw [rowCount, List.countP_append, List.countP_singleton, ← rowCount]
  by_cases hpurpose : purpose = row.reference.purpose
  · rw [hpurpose, Function.update_self, if_pos (beq_self_eq_true _)]
  · rw [Function.update_of_ne hpurpose, if_neg (fun h => hpurpose (eq_of_beq h).symm), Nat.add_zero]

theorem activeCount_concat (rows : List StateMacKeyManifestRow) (row : StateMacKeyManifestRow) :
    activeCount (rows ++ [row]) =
      if row.active then Function.update (activeCount rows) row.reference.purpose
        (activeCount rows row.reference.purpose + 1)
      else activeCount rows := by
  funext purpose
  rw [activeCount, List.countP_append, List.countP_singleton, ← activeCount]
  cases row.active with
  | false => rw [Bool.and_false, if_neg Bool.noConfusion, if_neg Bool.noConfusion, Nat.add_zero]
  | true =>
    rw [Bool.and_true, if_pos rfl]
    by_cases hpurpose : purpose = row.reference.purpose
    · rw [hpurpose, Function.update_self, if_pos (beq_self_eq_true _)]
    · rw [Function.update_of_ne hpurpose, if_neg (fun h => hpurpose (eq_of_beq h).symm),
        Nat.add_zero]

theorem scanOf_concat (rows : List StateMacKeyManifestRow) (row : StateMacKeyManifestRow) :
    scanOf (rows ++ [row]) = ⟨some row.order,
      tally (Function.update (rowCount rows) row.reference.purpose
        (rowCount rows row.reference.purpose + 1)),
      tally (if row.active then Function.update (activeCount rows) row.reference.purpose
        (activeCount rows row.reference.purpose + 1) else activeCount rows)⟩ := by
  rw [scanOf, rowCount_concat, activeCount_concat, List.getLast?_append]
  rfl

/-- One more row. -/
theorem scanned_concat {rows : List StateMacKeyManifestRow} {row : StateMacKeyManifestRow} :
    Scanned selectedOrigin prebootstrapOrigin (rows ++ [row]) ↔
      Scanned selectedOrigin prebootstrapOrigin rows ∧
      (∀ last ∈ rows.getLast?, RowBefore last row) ∧
      rowCount rows row.reference.purpose < 16 ∧
      (row.active = true → activeCount rows row.reference.purpose = 0 ∧
        row.origin = expectedOrigin selectedOrigin prebootstrapOrigin row.reference.purpose) := by
  constructor
  · intro h
    have hchain := List.isChain_append.1 h.chain
    have hrows : ∀ purpose, rowCount rows purpose ≤ rowCount (rows ++ [row]) purpose := by
      intro purpose
      rw [rowCount, rowCount, List.countP_append]
      exact Nat.le_add_right _ _
    have hactive : ∀ purpose, activeCount rows purpose ≤ activeCount (rows ++ [row]) purpose := by
      intro purpose
      rw [activeCount, activeCount, List.countP_append]
      exact Nat.le_add_right _ _
    refine ⟨⟨hchain.1, fun p => (hrows p).trans (h.few p), fun p => (hactive p).trans (h.single p),
      fun r hr => h.origins r (List.mem_append_left _ hr)⟩, fun last hlast => ?_, ?_,
      fun hrow => ?_⟩
    · exact hchain.2.2 last hlast row rfl
    · have hfew := h.few row.reference.purpose
      rw [rowCount_concat, Function.update_self] at hfew
      omega
    · have hsingle := h.single row.reference.purpose
      rw [activeCount_concat, if_pos hrow, Function.update_self] at hsingle
      exact ⟨by omega, h.origins row (List.mem_append_right _ (List.mem_singleton_self _)) hrow⟩
  · rintro ⟨h, hlast, hfew, hactive⟩
    refine ⟨List.isChain_append.2 ⟨h.chain, List.IsChain.singleton row, ?_⟩, fun p => ?_,
      fun p => ?_, ?_⟩
    · intro last hmem next hnext
      cases hnext
      exact hlast last hmem
    · rw [rowCount_concat, Function.update_apply]
      split_ifs
      · omega
      · exact h.few p
    · rw [activeCount_concat]
      split_ifs with hrow
      · rw [Function.update_apply, (hactive hrow).1]
        split_ifs
        · exact Nat.le_refl _
        · exact h.single p
      · exact h.single p
    · rw [List.forall_mem_append, List.forall_mem_singleton]
      exact ⟨h.origins, fun hrow => (hactive hrow).2⟩

theorem eq_code_iff (purpose : MacPurpose) :
    purpose.code = 11 ↔ purpose = .portableReservationV1 := by
  cases purpose <;> decide

/-- Adding one to a counter of a purpose and reading it. -/
theorem bump_bind_readAt {ε β : Type} (count : MacPurpose → ℕ) (purpose : MacPurpose)
    (h : count purpose < 255) (f : List UInt8 → UInt8 → Except (Halt ε) β) :
    (do
      let counts ← bump (tally count) (MacPurpose.index purpose)
      f counts (← readAt counts (MacPurpose.index purpose))) =
      f (tally (Function.update count purpose (count purpose + 1)))
        (UInt8.ofNat (count purpose + 1)) := by
  rw [bump_tally count purpose h]
  show (readAt (tally _) _ >>= _) = _
  rw [tally, readAt_map, Function.update_self]
  rfl

theorem decides_scanRow (rows : List StateMacKeyManifestRow) (row : StateMacKeyManifestRow)
    (h : Scanned selectedOrigin prebootstrapOrigin rows) :
    Decides Refused (Scanned selectedOrigin prebootstrapOrigin (rows ++ [row]))
      (fun scan => scan = scanOf (rows ++ [row]))
      (scanRow selectedOrigin prebootstrapOrigin (scanOf rows) row) := by
  -- the counters stay small, so that adding one cannot overflow
  have hrows := h.few row.reference.purpose
  have hactives := h.single row.reference.purpose
  have horder : ((scanOf rows).previous.any fun prior => orderLe row.order prior) = false ↔
      ∀ last ∈ rows.getLast?, RowBefore last row := by
    rw [scanOf]
    cases rows.getLast? <;> simp [RowBefore]
  have hsixteen :
      decide ((16 : UInt8) < UInt8.ofNat (rowCount rows row.reference.purpose + 1)) = false ↔
        rowCount rows row.reference.purpose < 16 := by
    rw [decide_eq_false_iff_not, UInt8.lt_iff_toNat_lt, toNat_ofNat (by omega)]
    show ¬ 16 < _ ↔ _
    omega
  have hone :
      decide ((1 : UInt8) < UInt8.ofNat (activeCount rows row.reference.purpose + 1)) = false ↔
        activeCount rows row.reference.purpose = 0 := by
    rw [decide_eq_false_iff_not, UInt8.lt_iff_toNat_lt, toNat_ofNat (by omega)]
    show ¬ 1 < _ ↔ _
    omega
  have horigin : (row.order.2.toList.take 32 !=
      (if row.order.1 = 11 then prebootstrapOrigin else selectedOrigin).toList) = false ↔
      row.origin = expectedOrigin selectedOrigin prebootstrapOrigin row.reference.purpose := by
    rw [bne_eq_false_iff_eq, expectedOrigin, ← apply_ite List.Vector.toList]
    simp only [StateMacKeyManifestRow.order, eq_code_iff]
    rfl
  rw [scanned_concat, scanOf_concat]
  unfold scanRow
  refine ((((decides_reject (refused_error _)).congr horder).bind fun _ _ _ => ?_)).congr
    ⟨fun hok => ⟨h, hok⟩, And.right⟩
  simp only [StateMacKeyManifestRow.order, purposeIndex_code]
  show Decides _ _ _ (bump (tally (rowCount rows)) _ >>= _)
  -- the count of the purpose is read back right after it is raised
  rw [bump_bind_readAt _ _ (by omega)]
  refine ((decides_reject (refused_error _)).congr hsixteen).bind fun _ _ _ => ?_
  cases hstatus : row.status with
  | retained =>
    have hactive : row.active = false := by rw [StateMacKeyManifestRow.active, hstatus]; rfl
    refine (decides_ok ?_).congr (iff_of_true trivial ?_)
    · rw [hactive]
      rfl
    · intro hrow
      rw [hactive] at hrow
      cases hrow
  | active =>
    have hactive : row.active = true := by rw [StateMacKeyManifestRow.active, hstatus]; rfl
    rw [if_pos rfl]
    show Decides _ _ _ (bump (tally (activeCount rows)) _ >>= _)
    rw [bump_bind_readAt _ _ (by omega)]
    refine (((decides_reject (refused_error _)).congr hone).bind fun _ _ _ =>
      ((decides_reject (refused_error _)).congr horigin).bind fun _ _ _ => decides_ok ?_).congr ?_
    · rw [if_pos hactive]
    · rw [and_true]
      exact ⟨fun hok _ => hok, fun hok => hok hactive⟩

end Scan

/-! ### Manifests -/

/-- The order of the entries of a manifest. -/
def Entry.Before (entry next : Entry) : Prop :=
  entry.purpose < next.purpose ∨ entry.purpose = next.purpose ∧
    (entry.origin < next.origin ∨ entry.origin = next.origin ∧ entry.serial < next.serial)

/-- The entries of a valid manifest. -/
structure Orderly (selectedOrigin prebootstrapOrigin : List UInt8) (entries : List Entry) :
    Prop where
  increasing : entries.Pairwise Entry.Before
  few : ∀ purpose, 1 ≤ purpose → purpose ≤ 11 →
    (entries.countP fun entry => entry.purpose == purpose) ≤ 16
  active : ∀ purpose, 1 ≤ purpose → purpose ≤ 11 →
    (entries.countP fun entry => entry.purpose == purpose && entry.active) = 1
  origin : ∀ entry ∈ entries, entry.active = true →
    entry.origin = if entry.purpose = 11 then prebootstrapOrigin else selectedOrigin

instance : Trans Entry.Before Entry.Before Entry.Before where
  trans := by
    rintro a b c (hab | ⟨hab, hab'⟩) (hbc | ⟨hbc, hbc'⟩)
    · exact .inl (hab.trans hbc)
    · exact .inl (hbc ▸ hab)
    · exact .inl (hab ▸ hbc)
    · refine .inr ⟨hab.trans hbc, ?_⟩
      rcases hab' with hab' | ⟨hab', hab''⟩ <;> rcases hbc' with hbc' | ⟨hbc', hbc''⟩
      · exact .inl (List.lt_trans hab' hbc')
      · exact .inl (hbc' ▸ hab')
      · exact .inl (hab' ▸ hbc')
      · exact .inr ⟨hab'.trans hbc', hab''.trans hbc''⟩

theorem orderLe_eq_false {order prior : UInt8 × MacKeyId} :
    orderLe order prior = false ↔ prior.1.toNat < order.1.toNat ∨
      prior.1.toNat = order.1.toNat ∧ prior.2.toList < order.2.toList := by
  simp only [orderLe, decide_eq_false_iff_not, not_or, not_and, not_not, UInt8.lt_iff_toNat_lt,
    ← UInt8.toNat_inj]
  constructor
  · rintro ⟨hcode, hkey⟩
    rcases Nat.lt_or_eq_of_le (Nat.le_of_not_lt hcode) with h | h
    · exact .inl h
    · exact .inr ⟨h, hkey h.symm⟩
  · rintro (h | ⟨h, hkey⟩)
    · exact ⟨Nat.lt_asymm h, fun heq => absurd heq (Nat.ne_of_gt h)⟩
    · exact ⟨Nat.not_lt.2 h.le, fun _ => hkey⟩

/-- The loop compares purposes and key identities, and so origins and serials. -/
theorem rowBefore_iff {row next : StateMacKeyManifestRow} :
    RowBefore row next ↔ row.entry.Before next.entry := by
  have hkeys : row.reference.keyId.toList < next.reference.keyId.toList ↔
      row.origin < next.origin ∨ row.origin = next.origin ∧ row.serial < next.serial := by
    have hlength : ∀ key : MacKeyId, (key.toList.take 32).length = 32 ∧
        (key.toList.drop 32).length = 8 := by
      intro key
      rw [List.length_take, List.length_drop, key.toList_length]
      exact ⟨rfl, rfl⟩
    obtain ⟨horigin, hserial⟩ := hlength row.reference.keyId
    obtain ⟨horigin', hserial'⟩ := hlength next.reference.keyId
    rw [← List.take_append_drop 32 row.reference.keyId.toList,
      ← List.take_append_drop 32 next.reference.keyId.toList,
      append_lt_append_iff (horigin.trans horigin'.symm) (hserial.trans hserial'.symm)]
    rfl
  rw [RowBefore, orderLe_eq_false]
  simp only [StateMacKeyManifestRow.order, Entry.Before, StateMacKeyManifestRow.entry, hkeys,
    Nat.cast_lt, Nat.cast_inj]

theorem code_inj {purpose purpose' : MacPurpose} :
    ((purpose.code.toNat : ℤ) = purpose'.code.toNat) ↔ purpose = purpose' := by
  cases purpose <;> cases purpose' <;> decide

/-- What the loop counts, in the entries. -/
theorem countP_entry (rows : List StateMacKeyManifestRow) (purpose : MacPurpose) :
    ((rows.map StateMacKeyManifestRow.entry).countP fun entry =>
        entry.purpose == (purpose.code.toNat : ℤ)) = rowCount rows purpose ∧
      ((rows.map StateMacKeyManifestRow.entry).countP fun entry =>
        entry.purpose == (purpose.code.toNat : ℤ) && entry.active) = activeCount rows purpose := by
  have hpurpose : ∀ row : StateMacKeyManifestRow,
      (row.entry.purpose == (purpose.code.toNat : ℤ)) = (row.reference.purpose == purpose) := by
    intro row
    rw [Bool.eq_iff_iff, beq_iff_eq, beq_iff_eq]
    exact code_inj
  rw [List.countP_map, List.countP_map]
  constructor
  · exact List.countP_congr fun row _ => by rw [Function.comp_apply, hpurpose]
  · refine List.countP_congr fun row _ => ?_
    rw [Function.comp_apply, hpurpose]
    rfl

/-- **The loop accepts the orderly manifests**, without overflow or index out of range. -/
theorem decides_validateStateMacKeyManifest (rows : List StateMacKeyManifestRow)
    (selectedOrigin prebootstrapOrigin : ByteVec 32) :
    Decides Refused (Orderly selectedOrigin.toList prebootstrapOrigin.toList
        (rows.map StateMacKeyManifestRow.entry)) (fun _ => True)
      (validateStateMacKeyManifest rows selectedOrigin prebootstrapOrigin) := by
  have hloop := @decides_foldlM _ _ _ Refused (scanRow selectedOrigin prebootstrapOrigin)
    ⟨none, List.replicate 11 0, List.replicate 11 0⟩ (Scanned selectedOrigin prebootstrapOrigin)
    scanOf rfl ⟨.nil, fun _ => Nat.zero_le _, fun _ => Nat.zero_le _, List.forall_mem_nil _⟩
    decides_scanRow (fun xs x h => (scanned_concat.1 h).1) rows
  -- the check behind the loop: one active row for each purpose
  have hmissing : ∀ {scan}, Scanned selectedOrigin prebootstrapOrigin rows → scan = scanOf rows →
      (scan.activePerPurpose.any (· != 1) = false ↔ ∀ purpose, activeCount rows purpose = 1) := by
    rintro scan hscanned rfl
    rw [List.any_eq_false, scanOf, tally]
    have hcount : ∀ purpose, (UInt8.ofNat (activeCount rows purpose) != 1) = false ↔
        activeCount rows purpose = 1 := by
      intro purpose
      have hsingle := hscanned.single purpose
      rw [bne_eq_false_iff_eq, ← UInt8.toNat_inj, toNat_ofNat (by omega)]
      rfl
    constructor
    · intro h purpose
      have hmem := List.mem_of_getElem? (all_getElem?_index purpose)
      exact (hcount purpose).1 (Bool.not_eq_true _ ▸ h _ (List.mem_map_of_mem hmem))
    · intro h value hvalue
      obtain ⟨purpose, -, rfl⟩ := List.mem_map.1 hvalue
      rw [(hcount purpose).2 (h purpose)]
      exact Bool.noConfusion
  refine (hloop.bind fun scan hscanned hscan =>
    (decides_reject (refused_error _)).congr (hmissing hscanned hscan)).congr ?_
  -- the loop compares neighbours, and the order of the entries is transitive
  have hpairwise : (rows.map StateMacKeyManifestRow.entry).Pairwise Entry.Before ↔
      rows.IsChain RowBefore := by
    rw [← List.isChain_iff_pairwise, List.isChain_map]
    exact List.IsChain.iff fun _ _ => rowBefore_iff.symm
  have horigin : ∀ row : StateMacKeyManifestRow,
      expectedOrigin selectedOrigin prebootstrapOrigin row.reference.purpose =
        if row.entry.purpose = 11 then prebootstrapOrigin.toList else selectedOrigin.toList := by
    intro row
    have hcode : row.reference.purpose = .portableReservationV1 ↔ row.entry.purpose = 11 :=
      code_inj.symm
    exact if_congr hcode rfl rfl
  constructor
  · rintro ⟨h, hone⟩
    refine ⟨hpairwise.2 h.chain, fun n hn hn' => ?_, fun n hn hn' => ?_, ?_⟩
    · obtain ⟨purpose, rfl⟩ := exists_code hn hn'
      rw [(countP_entry rows purpose).1]
      exact h.few purpose
    · obtain ⟨purpose, rfl⟩ := exists_code hn hn'
      rw [(countP_entry rows purpose).2]
      exact hone purpose
    · rw [List.forall_mem_map]
      intro row hrow hactive
      rw [← horigin]
      exact h.origins row hrow hactive
  · intro h
    have hone : ∀ purpose, activeCount rows purpose = 1 := by
      intro purpose
      obtain ⟨hn, hn'⟩ := code_range purpose
      rw [← (countP_entry rows purpose).2]
      exact h.active _ hn hn'
    refine ⟨⟨hpairwise.1 h.increasing, fun purpose => ?_, fun purpose => (hone purpose).le, ?_⟩,
      hone⟩
    · obtain ⟨hn, hn'⟩ := code_range purpose
      rw [← (countP_entry rows purpose).1]
      exact h.few _ hn hn'
    · intro row hrow hactive
      rw [horigin]
      exact h.origin row.entry (List.mem_map_of_mem hrow) hactive

end MsgRiver.Keys
