import Mathlib.Algebra.GroupWithZero.Nat
import Mathlib.Tactic.Common

/-!
# Bytes and texts

The byte classes of the standard library and the UTF-8 bytes of a text.
-/

namespace Ascii

/-- The UTF-8 bytes of a text. -/
def utf8Bytes (s : String) : List UInt8 := s.toByteArray.data.toList

/-- `0` to `9`. -/
def isDigit (b : UInt8) : Bool := 0x30 ≤ b && b ≤ 0x39

/-- `A` to `Z`. -/
def isUppercase (b : UInt8) : Bool := 0x41 ≤ b && b ≤ 0x5a

/-- `a` to `z`. -/
def isLowercase (b : UInt8) : Bool := 0x61 ≤ b && b ≤ 0x7a

/-- A letter or a digit. -/
def isAlphanumeric (b : UInt8) : Bool := isDigit b || isUppercase b || isLowercase b

/-! ### The bytes of a text -/

theorem utf8Bytes_eq_flatMap (s : String) :
    utf8Bytes s = s.toList.flatMap String.utf8EncodeChar := by
  unfold utf8Bytes
  rw [← String.utf8Encode_toList]
  simp [List.utf8Encode]

theorem utf8Bytes_append (a b : String) : utf8Bytes (a ++ b) = utf8Bytes a ++ utf8Bytes b := by
  simp [utf8Bytes, String.toByteArray_append]

theorem length_utf8Bytes (s : String) : (utf8Bytes s).length = s.utf8ByteSize := by
  simp [utf8Bytes]

/-- An ASCII character is its own byte. -/
theorem utf8EncodeChar_of_ascii {c : Char} (h : c.toNat < 128) :
    String.utf8EncodeChar c = [UInt8.ofNat c.toNat] := by
  have hle : c.toNat ≤ 127 := by omega
  simp [String.utf8EncodeChar, Nat.not_lt.2 hle]

/-- A check of each character of a text. -/
theorem forall_mem_of_all {p : Char → Prop} [DecidablePred p] {cs : List Char}
    (h : cs.all (fun c => decide (p c)) = true) : ∀ c ∈ cs, p c := by
  intro c hc
  exact of_decide_eq_true (List.all_eq_true.1 h c hc)

/-- The bytes of ASCII characters. -/
def codes (cs : List Char) : List UInt8 := cs.map fun c => UInt8.ofNat c.toNat

theorem codes_append (as bs : List Char) : codes (as ++ bs) = codes as ++ codes bs :=
  List.map_append

theorem length_codes (cs : List Char) : (codes cs).length = cs.length := List.length_map _

theorem utf8Bytes_of_ascii {cs : List Char} (h : ∀ c ∈ cs, c.toNat < 128) :
    utf8Bytes (String.ofList cs) = codes cs := by
  rw [utf8Bytes_eq_flatMap, String.toList_ofList]
  induction cs with
  | nil => rfl
  | cons c cs ih =>
    rw [List.flatMap_cons, utf8EncodeChar_of_ascii (h c List.mem_cons_self),
      ih fun d hd => h d (List.mem_cons_of_mem _ hd)]
    rfl

theorem mem_utf8Bytes_of_ascii {c : Char} {s : String} (hc : c ∈ s.toList) (h : c.toNat < 128) :
    UInt8.ofNat c.toNat ∈ utf8Bytes s := by
  rw [utf8Bytes_eq_flatMap, List.mem_flatMap]
  exact ⟨c, hc, by rw [utf8EncodeChar_of_ascii h]; exact List.mem_singleton.2 rfl⟩

/-- The bytes of the other characters are large. -/
theorem not_ascii_ofNat {n m : ℕ} (hn : n + m < 256) (hm : 128 ≤ m) :
    ¬ (UInt8.ofNat (n + m)).toNat < 128 := by
  rw [UInt8.toNat_ofNat']
  omega

/-- An ASCII byte is that of its character. -/
theorem toNat_of_mem_utf8EncodeChar {c : Char} {b : UInt8} (h : b ∈ String.utf8EncodeChar c)
    (hb : b.toNat < 128) : c.toNat = b.toNat := by
  by_cases hc : c.toNat < 128
  · rw [utf8EncodeChar_of_ascii hc, List.mem_singleton] at h
    rw [h, UInt8.toNat_ofNat']
    omega
  · exfalso
    have hv : ¬ c.val.toNat ≤ 127 := by
      intro hle
      exact hc (Nat.lt_succ_of_le hle)
    simp only [String.utf8EncodeChar, if_neg hv] at h
    split_ifs at h
    all_goals
      simp only [List.mem_cons, List.not_mem_nil, or_false] at h
    · rcases h with rfl | rfl <;> exact not_ascii_ofNat (by omega) (by omega) hb
    · rcases h with rfl | rfl | rfl <;> exact not_ascii_ofNat (by omega) (by omega) hb
    · rcases h with rfl | rfl | rfl | rfl <;> exact not_ascii_ofNat (by omega) (by omega) hb

theorem mem_of_mem_utf8Bytes {s : String} {b : UInt8} (h : b ∈ utf8Bytes s) (hb : b.toNat < 128) :
    Char.ofNat b.toNat ∈ s.toList := by
  rw [utf8Bytes_eq_flatMap, List.mem_flatMap] at h
  obtain ⟨c, hc, hmem⟩ := h
  rw [← toNat_of_mem_utf8EncodeChar hmem hb, Char.ofNat_toNat]
  exact hc

/-- An ASCII text has as many bytes as characters. -/
theorem utf8ByteSize_of_ascii {s : String} (h : ∀ c ∈ s.toList, c.toNat < 128) :
    s.utf8ByteSize = s.toList.length := by
  rw [← length_utf8Bytes, utf8Bytes_eq_flatMap]
  generalize s.toList = cs at h
  induction cs with
  | nil => rfl
  | cons c cs ih =>
    rw [List.flatMap_cons, utf8EncodeChar_of_ascii (h c List.mem_cons_self), List.length_append,
      ih fun d hd => h d (List.mem_cons_of_mem c hd), List.length_singleton, List.length_cons]
    omega

/-- The bytes of a text are those of its characters. -/
theorem utf8ByteSize_ofList (cs : List Char) :
    (String.ofList cs).utf8ByteSize = (cs.map Char.utf8Size).sum := by
  rw [← length_utf8Bytes, utf8Bytes_eq_flatMap, String.toList_ofList, List.length_flatMap]
  congr 1
  apply List.map_congr_left
  intro c _
  exact String.length_utf8EncodeChar c

/-- A text has at most as many characters as bytes. -/
theorem length_toList_le (s : String) : s.toList.length ≤ s.utf8ByteSize := by
  rw [← length_utf8Bytes, utf8Bytes_eq_flatMap, List.length_flatMap]
  induction s.toList with
  | nil => simp
  | cons c cs ih =>
    have hpos : 1 ≤ (String.utf8EncodeChar c).length := by
      rw [String.length_utf8EncodeChar]
      exact Char.utf8Size_pos c
    simp only [List.length_cons, List.map_cons, List.sum_cons]
    omega

end Ascii
