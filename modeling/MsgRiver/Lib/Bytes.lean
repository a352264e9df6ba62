import Mathlib.Data.List.Induction
import Mathlib.Data.Vector.Basic
import Mathlib.Tactic.Common
import Mathlib.Tactic.Ring

/-!
# Fixed-width integers and slices of a byte string

A `FixedWidth` type is an integer type with a big-endian wire form of a fixed number of bytes.
`wire` and `unwire` are inverse to each other on byte strings of that length.

`slice bs a b` is the half-open range `bs[a..b]`.  Two lemmas do the work of a slice-based decoder:
`slice_flatten` reads one field out of a concatenation of fields, and `slice_append_slice` glues
neighbouring slices together again.
-/

namespace Bytes

/-- A byte array of fixed length. -/
abbrev ByteVec (n : ℕ) := List.Vector UInt8 n

/-- The array of zeros. -/
def ByteVec.zero (n : ℕ) : ByteVec n := List.Vector.replicate n 0

/-- The array with the given bytes, when there are exactly `n` of them. -/
def toVec? (n : ℕ) (bs : List UInt8) : Option (ByteVec n) :=
  if h : bs.length = n then some ⟨bs, h⟩ else none

theorem toVec?_eq_some {n : ℕ} {bs : List UInt8} {v : ByteVec n} :
    toVec? n bs = some v ↔ v.toList = bs := by
  unfold toVec?
  constructor
  · intro h
    split_ifs at h with hn
    cases h
    rfl
  · rintro rfl
    rw [dif_pos v.toList_length]
    rfl

@[simp] theorem toVec?_toList {n : ℕ} (v : ByteVec n) : toVec? n v.toList = some v :=
  toVec?_eq_some.2 rfl

/-! ### Big-endian integers -/

/-- The last `w` digits of `n` in base 256, most significant first. -/
def digits : ℕ → ℕ → List UInt8
  | 0, _ => []
  | w + 1, n => digits w (n / 256) ++ [UInt8.ofNat n]

/-- The number with the given base-256 digits. -/
def value (bs : List UInt8) : ℕ := bs.foldl (fun n b => 256 * n + b.toNat) 0

@[simp] theorem length_digits (w n : ℕ) : (digits w n).length = w := by
  induction w generalizing n with
  | zero => rfl
  | succ w ih => rw [digits, List.length_append, ih, List.length_singleton]

theorem value_concat (bs : List UInt8) (b : UInt8) :
    value (bs ++ [b]) = 256 * value bs + b.toNat := by
  rw [value, List.foldl_append]
  rfl

theorem value_digits (w n : ℕ) : value (digits w n) = n % 256 ^ w := by
  induction w generalizing n with
  | zero => simp [digits, value, Nat.mod_one]
  | succ w ih =>
    have hlast : (UInt8.ofNat n).toNat = n % 256 := UInt8.toNat_ofNat'
    rw [digits, value_concat, ih, hlast, pow_succ', Nat.mod_mul]
    ring

theorem value_lt (bs : List UInt8) : value bs < 256 ^ bs.length := by
  induction bs using List.reverseRecOn with
  | nil => simp [value]
  | append_singleton bs b ih =>
    have hb : b.toNat < 256 := b.toNat_lt
    rw [value_concat, List.length_append, List.length_singleton, pow_succ]
    omega

theorem digits_value (bs : List UInt8) : digits bs.length (value bs) = bs := by
  induction bs using List.reverseRecOn with
  | nil => rfl
  | append_singleton bs b ih =>
    have hb : b.toNat < 256 := b.toNat_lt
    rw [List.length_append, List.length_singleton, digits, value_concat]
    have hdiv : (256 * value bs + b.toNat) / 256 = value bs := by omega
    have hlast : UInt8.ofNat (256 * value bs + b.toNat) = b := by
      apply UInt8.toNat_inj.1
      rw [UInt8.toNat_ofNat']
      omega
    rw [hdiv, ih, hlast]

/-- Only the remainder counts. -/
theorem digits_mod (w n : ℕ) : digits w (n % 256 ^ w) = digits w n := by
  have h := digits_value (digits w n)
  rwa [length_digits, value_digits] at h

theorem value_append (bs cs : List UInt8) :
    value (bs ++ cs) = value bs * 256 ^ cs.length + value cs := by
  induction cs using List.reverseRecOn with
  | nil => simp [value]
  | append_singleton cs c ih =>
    rw [← List.append_assoc, value_concat, value_concat, ih, List.length_append,
      List.length_singleton]
    ring

/-- Two numbers in base `n` are compared from the first digit on. -/
theorem mul_add_lt_iff {a b x y n : ℕ} (hx : x < n) (hy : y < n) :
    a * n + x < b * n + y ↔ a < b ∨ a = b ∧ x < y := by
  have hmul : ∀ {c d : ℕ}, c < d → c * n + n ≤ d * n := by
    intro c d hlt
    calc c * n + n = (c + 1) * n := by ring
      _ ≤ d * n := Nat.mul_le_mul_right n hlt
  rcases Nat.lt_trichotomy a b with h | rfl | h
  · have hle := hmul h
    omega
  · omega
  · have hle := hmul h
    omega

/-- Byte strings of one length are ordered as the numbers they stand for. -/
theorem lt_iff_value_lt {bs cs : List UInt8} (h : bs.length = cs.length) :
    bs < cs ↔ value bs < value cs := by
  induction bs generalizing cs with
  | nil =>
    obtain rfl := List.length_eq_zero_iff.1 h.symm
    simp
  | cons b bs ih =>
    rcases cs with _ | ⟨c, cs⟩
    · cases h
    have hlen : bs.length = cs.length := Nat.succ.inj h
    have hsplit : ∀ (d : UInt8) (ds : List UInt8), ds.length = cs.length →
        value (d :: ds) = d.toNat * 256 ^ cs.length + value ds := by
      intro d ds hds
      rw [← hds, ← List.singleton_append, value_append]
      simp [value]
    rw [List.cons_lt_cons_iff, ih hlen, hsplit b bs hlen, hsplit c cs rfl,
      mul_add_lt_iff (hlen ▸ value_lt bs) (value_lt cs), UInt8.lt_iff_toNat_lt, ← UInt8.toNat_inj]

theorem value_inj {bs cs : List UInt8} (h : bs.length = cs.length) :
    value bs = value cs ↔ bs = cs := by
  refine ⟨fun hvalue => ?_, congrArg value⟩
  rw [← digits_value bs, ← digits_value cs, hvalue, h]

/-- The order of two byte strings of one length, from their first parts on. -/
theorem append_lt_append_iff {bs cs bs' cs' : List UInt8} (h : bs.length = cs.length)
    (h' : bs'.length = cs'.length) :
    bs ++ bs' < cs ++ cs' ↔ bs < cs ∨ bs = cs ∧ value bs' < value cs' := by
  have hlen : (bs ++ bs').length = (cs ++ cs').length := by
    rw [List.length_append, List.length_append, h, h']
  rw [lt_iff_value_lt hlen, lt_iff_value_lt h, ← value_inj h, value_append, value_append, h',
    mul_add_lt_iff (h' ▸ value_lt bs') (value_lt cs')]

/-- An integer type with a big-endian wire form. -/
class FixedWidth (α : Type) where
  width : ℕ
  toNat : α → ℕ
  ofNat : ℕ → α
  toNat_lt : ∀ x, toNat x < 256 ^ width
  ofNat_toNat : ∀ x, ofNat (toNat x) = x
  toNat_ofNat : ∀ n, n < 256 ^ width → toNat (ofNat n) = n

instance : FixedWidth UInt8 where
  width := 1
  toNat := UInt8.toNat
  ofNat := UInt8.ofNat
  toNat_lt x := x.toNat_lt
  ofNat_toNat _ := UInt8.ofNat_toNat
  toNat_ofNat _ h := UInt8.toNat_ofNat_of_lt' h

instance : FixedWidth UInt16 where
  width := 2
  toNat := UInt16.toNat
  ofNat := UInt16.ofNat
  toNat_lt x := x.toNat_lt
  ofNat_toNat _ := UInt16.ofNat_toNat
  toNat_ofNat _ h := UInt16.toNat_ofNat_of_lt' h

instance : FixedWidth UInt32 where
  width := 4
  toNat := UInt32.toNat
  ofNat := UInt32.ofNat
  toNat_lt x := x.toNat_lt
  ofNat_toNat _ := UInt32.ofNat_toNat
  toNat_ofNat _ h := UInt32.toNat_ofNat_of_lt' h

instance : FixedWidth UInt64 where
  width := 8
  toNat := UInt64.toNat
  ofNat := UInt64.ofNat
  toNat_lt x := x.toNat_lt
  ofNat_toNat _ := UInt64.ofNat_toNat
  toNat_ofNat _ h := UInt64.toNat_ofNat_of_lt' h

/-- Signed integers in two's complement. -/
instance : FixedWidth Int64 where
  width := 8
  toNat x := x.toUInt64.toNat
  ofNat n := (UInt64.ofNat n).toInt64
  toNat_lt x := x.toUInt64.toNat_lt
  ofNat_toNat x := by rw [UInt64.ofNat_toNat]; rfl
  toNat_ofNat n h := by
    show (UInt64.ofNat n).toNat = n
    exact UInt64.toNat_ofNat_of_lt' h

section Wire

variable {α : Type} [FixedWidth α]

/-- The bytes of an integer. -/
def wire (x : α) : List UInt8 := digits (FixedWidth.width α) (FixedWidth.toNat x)

/-- The integer with the given bytes. -/
def unwire (bs : List UInt8) : α := FixedWidth.ofNat (value bs)

theorem length_wire (x : α) : (wire x).length = FixedWidth.width α := length_digits _ _

@[simp] theorem unwire_wire (x : α) : (unwire (wire x) : α) = x := by
  rw [unwire, wire, value_digits, Nat.mod_eq_of_lt (FixedWidth.toNat_lt x),
    FixedWidth.ofNat_toNat]

theorem wire_unwire {bs : List UInt8} (h : bs.length = FixedWidth.width α) :
    wire (unwire bs : α) = bs := by
  have hlt : value bs < 256 ^ FixedWidth.width α := h ▸ value_lt bs
  rw [wire, unwire, FixedWidth.toNat_ofNat _ hlt, ← h, digits_value]

/-- The integer with the given bytes, when there are exactly as many as it takes. -/
def unwire? (bs : List UInt8) : Option α :=
  if bs.length = FixedWidth.width α then some (unwire bs) else none

theorem unwire?_eq_some {bs : List UInt8} {x : α} : unwire? bs = some x ↔ wire x = bs := by
  unfold unwire?
  constructor
  · intro h
    split_ifs at h with hlen
    cases h
    exact wire_unwire hlen
  · rintro rfl
    rw [if_pos (length_wire x), unwire_wire]

theorem wire_injective {x y : α} (h : wire x = wire y) : x = y := by
  rw [← unwire_wire x, h, unwire_wire]

/-- The integer with value `n`, when there is one. -/
def ofNat? (n : ℕ) : Option α :=
  if n < 256 ^ FixedWidth.width α then some (FixedWidth.ofNat n) else none

theorem ofNat?_eq_some {n : ℕ} {x : α} : ofNat? n = some x ↔ FixedWidth.toNat x = n := by
  unfold ofNat?
  constructor
  · intro h
    split_ifs at h with hn
    cases h
    exact FixedWidth.toNat_ofNat n hn
  · rintro rfl
    rw [if_pos (FixedWidth.toNat_lt x), FixedWidth.ofNat_toNat]

end Wire

/-- `checked_add(1)`. -/
def checkedSucc (x : UInt64) : Option UInt64 := ofNat? (x.toNat + 1)

theorem checkedSucc_eq_some {x y : UInt64} : checkedSucc x = some y ↔ y.toNat = x.toNat + 1 :=
  ofNat?_eq_some

@[simp] theorem length_wire_u8 (x : UInt8) : (wire x).length = 1 := length_wire x

@[simp] theorem length_wire_u16 (x : UInt16) : (wire x).length = 2 := length_wire x

@[simp] theorem length_wire_u32 (x : UInt32) : (wire x).length = 4 := length_wire x

@[simp] theorem length_wire_u64 (x : UInt64) : (wire x).length = 8 := length_wire x

@[simp] theorem length_wire_i64 (x : Int64) : (wire x).length = 8 := length_wire x

theorem wire_u8 (x : UInt8) : wire x = [x] := by
  rw [wire]
  show digits 0 _ ++ [UInt8.ofNat x.toNat] = [x]
  rw [digits, UInt8.ofNat_toNat]
  rfl

/-! ### Bits -/

theorem toNat_shiftLeft_or {x y : UInt8} {k : UInt8} (hk : k.toNat < 8)
    (hy : y.toNat < 2 ^ k.toNat) :
    (x <<< k ||| y).toNat = x.toNat % 2 ^ (8 - k.toNat) * 2 ^ k.toNat + y.toNat := by
  have hsplit : 2 ^ 8 = 2 ^ (8 - k.toNat) * 2 ^ k.toNat := by
    rw [← Nat.pow_add]
    congr 1
    omega
  have hshift : (x <<< k).toNat = (x.toNat % 2 ^ (8 - k.toNat)) <<< k.toNat := by
    rw [UInt8.toNat_shiftLeft, Nat.mod_eq_of_lt hk, Nat.shiftLeft_eq, Nat.shiftLeft_eq, hsplit,
      Nat.mul_mod_mul_right]
  rw [UInt8.toNat_or, hshift, ← Nat.shiftLeft_add_eq_or_of_lt hy, Nat.shiftLeft_eq]

theorem toNat_shiftRight {x k : UInt8} (hk : k.toNat < 8) :
    (x >>> k).toNat = x.toNat / 2 ^ k.toNat := by
  rw [UInt8.toNat_shiftRight, Nat.mod_eq_of_lt hk, Nat.shiftRight_eq_div_pow]

/-- The low bits of a byte. -/
theorem toNat_and {x : UInt8} (k : ℕ) {mask : UInt8} (hmask : mask.toNat = 2 ^ k - 1) :
    (x &&& mask).toNat = x.toNat % 2 ^ k := by
  rw [UInt8.toNat_and, hmask, Nat.and_two_pow_sub_one_eq_mod]

/-! ### Slices -/

section Slices

variable {β : Type}

/-- `bs[a..b]`. -/
def slice (bs : List β) (a b : ℕ) : List β := (bs.drop a).take (b - a)

theorem length_slice {bs : List β} {a b : ℕ} (hb : b ≤ bs.length) :
    (slice bs a b).length = b - a := by
  rw [slice, List.length_take, List.length_drop]
  omega

/-- One field of a concatenation. -/
theorem slice_flatten {fields : List (List β)} {i : ℕ} {field : List β} {a b : ℕ}
    (hfield : fields[i]? = some field) (ha : a = (fields.take i).flatten.length)
    (hb : b = a + field.length) : slice fields.flatten a b = field := by
  obtain ⟨hi, rfl⟩ := List.getElem?_eq_some_iff.1 hfield
  subst ha hb
  have hsplit : fields.flatten =
      (fields.take i).flatten ++ (fields[i] ++ (fields.drop (i + 1)).flatten) := by
    conv_lhs => rw [← List.take_append_drop i fields, List.flatten_append,
      List.drop_eq_getElem_cons hi, List.flatten_cons]
  rw [slice, hsplit, List.drop_left, Nat.add_sub_cancel_left, List.take_left]

/-- The byte `bs[i]` of a byte string that is long enough. -/
def byteAt (bs : List UInt8) (i : ℕ) : UInt8 := bs.getD i 0

theorem byteAt_of_slice {bs : List UInt8} {i : ℕ} {b : UInt8} (h : slice bs i (i + 1) = [b]) :
    byteAt bs i = b := by
  rw [slice, Nat.add_sub_cancel_left] at h
  cases hdrop : bs.drop i with
  | nil => rw [hdrop] at h; cases h
  | cons c cs =>
    rw [hdrop] at h
    have hget : bs[i]? = some c := by
      rw [← List.head?_drop, hdrop, List.head?_cons]
    rw [byteAt, List.getD_eq_getElem?_getD, hget]
    simpa using h

theorem slice_of_byteAt {bs : List UInt8} {i : ℕ} (h : i < bs.length) :
    slice bs i (i + 1) = [byteAt bs i] := by
  rw [slice, Nat.add_sub_cancel_left, List.drop_eq_getElem_cons h, byteAt,
    List.getD_eq_getElem?_getD, List.getElem?_eq_getElem h]
  rfl

theorem slice_append_slice {bs : List β} {a b c : ℕ} (hab : a ≤ b) (hbc : b ≤ c) :
    slice bs a b ++ slice bs b c = slice bs a c := by
  unfold slice
  have hc : c - a = (b - a) + (c - b) := by omega
  have hb : bs.drop b = (bs.drop a).drop (b - a) := by
    rw [List.drop_drop]
    congr 1
    omega
  rw [hc, List.take_add, hb]

/-- The pieces between the given positions, up to the end. -/
def cutAt (bs : List β) : ℕ → List ℕ → List (List β)
  | a, [] => [bs.drop a]
  | a, b :: cuts => slice bs a b :: cutAt bs b cuts

/-- The pieces make up the whole. -/
theorem flatten_cutAt (bs : List β) (a : ℕ) (cuts : List ℕ) (h : (a :: cuts).IsChain (· ≤ ·)) :
    (cutAt bs a cuts).flatten = bs.drop a := by
  induction cuts generalizing a with
  | nil => rw [cutAt, List.flatten_cons, List.flatten_nil, List.append_nil]
  | cons b cuts ih =>
    rw [List.isChain_cons_cons] at h
    have hdrop : bs.drop b = (bs.drop a).drop (b - a) := by
      rw [List.drop_drop]
      congr 1
      omega
    rw [cutAt, List.flatten_cons, ih b h.2, slice, hdrop, List.take_append_drop]

/-- Where the pieces behind the first begin, when the first begins at `a`. -/
def positions : ℕ → List (List β) → List ℕ
  | _, [] => []
  | _, [_] => []
  | a, field :: next :: fields =>
    (a + field.length) :: positions (a + field.length) (next :: fields)

theorem cutAt_positions (front : List β) {fields : List (List β)} (h : fields ≠ []) :
    cutAt (front ++ fields.flatten) front.length (positions front.length fields) = fields := by
  induction fields generalizing front with
  | nil => exact absurd rfl h
  | cons field fields ih =>
    rcases fields with _ | ⟨next, fields⟩
    · rw [positions, cutAt, List.flatten_cons, List.flatten_nil, List.append_nil, List.drop_left]
    · have hfirst : slice (front ++ (field :: next :: fields).flatten) front.length
          (front.length + field.length) = field := by
        rw [slice, List.drop_left, Nat.add_sub_cancel_left, List.flatten_cons, List.take_left]
      have hrest := ih (front ++ field) (List.cons_ne_nil next fields)
      rw [List.length_append, List.append_assoc, ← List.flatten_cons] at hrest
      simp only [positions, cutAt, hfirst, hrest]

theorem isChain_positions (a : ℕ) (fields : List (List β)) :
    (a :: positions a fields).IsChain (· ≤ ·) := by
  induction fields generalizing a with
  | nil => exact List.IsChain.singleton a
  | cons field fields ih =>
    rcases fields with _ | ⟨next, fields⟩
    · exact List.IsChain.singleton a
    · rw [positions, List.isChain_cons_cons]
      exact ⟨Nat.le_add_right _ _, ih _⟩

/-- A byte string is the concatenation of some fields when its cuts are these fields. -/
theorem flatten_eq_iff_cutAt {fields : List (List β)} {bs : List β} (h : fields ≠ [])
    {cuts : List ℕ} (hcuts : positions 0 fields = cuts) :
    fields.flatten = bs ↔ cutAt bs 0 cuts = fields := by
  subst hcuts
  constructor
  · rintro rfl
    exact cutAt_positions [] h
  · intro hcut
    rw [← hcut, flatten_cutAt bs 0 _ (isChain_positions 0 fields), List.drop_zero]

theorem take_eq_slice (bs : List β) (n : ℕ) : bs.take n = slice bs 0 n := by
  rw [slice, List.drop_zero, Nat.sub_zero]

theorem drop_eq_slice (bs : List β) (n : ℕ) : bs.drop n = slice bs n bs.length := by
  rw [slice, List.take_of_length_le]
  rw [List.length_drop]

end Slices

end Bytes
