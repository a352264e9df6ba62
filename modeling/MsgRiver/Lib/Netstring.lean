import MsgRiver.Lib.Text

/-!
# Netstrings

A field behind its length in decimal and a colon, so that fields with arbitrary bytes can stand one
after another.  The digits end at the first colon and tell where the field ends, whatever stands
behind it; a sequence of netstrings names its fields.
-/

namespace Netstring

open Ascii

/-- A number in decimal. -/
def digits (n : ℕ) : List UInt8 := utf8Bytes (Nat.repr n)

/-- One field. -/
def netstring (field : List UInt8) : List UInt8 := digits field.length ++ 0x3a :: field

/-! ### Decimal numbers -/

theorem repr_injective {m n : ℕ} (h : Nat.repr m = Nat.repr n) : m = n := by
  have hdigits : Nat.toDigits 10 m = Nat.toDigits 10 n := by
    rw [← Nat.toList_repr, ← Nat.toList_repr, h]
  have hm := Nat.ofDigitChars_toDigits (b := 10) (n := m) (by decide) (by decide)
  rw [hdigits, Nat.ofDigitChars_toDigits (by decide) (by decide)] at hm
  exact hm.symm

theorem repr_ne_minus {n : ℕ} (s : String) : Nat.repr n ≠ "-" ++ s := by
  intro h
  have hmem : '-' ∈ Nat.toDigits 10 n := by
    rw [← Nat.toList_repr, h, String.toList_append]
    exact List.mem_append_left _ (by decide)
  exact absurd (Text.isDigit_toDigits hmem) (by decide)

/-- A number is known from its decimal form, also below zero. -/
theorem int_repr_injective {m n : ℤ} (h : Int.repr m = Int.repr n) : m = n := by
  rw [Int.repr_eq_if, Int.repr_eq_if] at h
  by_cases hm : 0 ≤ m
  · by_cases hn : 0 ≤ n
    · rw [if_pos hm, if_pos hn] at h
      have hnat := repr_injective h
      omega
    · rw [if_pos hm, if_neg hn] at h
      exact absurd h (repr_ne_minus _)
  · by_cases hn : 0 ≤ n
    · rw [if_neg hm, if_pos hn] at h
      exact absurd h.symm (repr_ne_minus _)
    · rw [if_neg hm, if_neg hn] at h
      have hnat := repr_injective (String.append_right_inj "-" |>.1 h)
      omega

theorem digits_injective {m n : ℕ} (h : digits m = digits n) : m = n :=
  repr_injective (Text.utf8Bytes_injective h)

/-- There is no colon among the digits. -/
theorem colon_notMem_digits (n : ℕ) : 0x3a ∉ digits n := by
  intro hmem
  have hcolon := mem_of_mem_utf8Bytes hmem (by decide)
  rw [Nat.toList_repr] at hcolon
  exact absurd (Text.isDigit_toDigits hcolon) (by decide)

/-! ### Fields -/

/-- The part in front of the first `a`. -/
theorem append_cons_inj {a : UInt8} {front front' rest rest' : List UInt8} (h : a ∉ front)
    (h' : a ∉ front') (heq : front ++ a :: rest = front' ++ a :: rest') :
    front = front' ∧ rest = rest' := by
  induction front generalizing front' with
  | nil =>
    cases front' with
    | nil => exact ⟨rfl, (List.cons.inj heq).2⟩
    | cons b front' =>
      obtain ⟨rfl, -⟩ := List.cons.inj heq
      exact absurd List.mem_cons_self h'
  | cons b front ih =>
    cases front' with
    | nil =>
      obtain ⟨rfl, -⟩ := List.cons.inj heq
      exact absurd List.mem_cons_self h
    | cons c front' =>
      obtain ⟨rfl, htail⟩ := List.cons.inj heq
      obtain ⟨rfl, rfl⟩ := ih (fun hmem => h (List.mem_cons_of_mem _ hmem))
        (fun hmem => h' (List.mem_cons_of_mem _ hmem)) htail
      exact ⟨rfl, rfl⟩

theorem netstring_append_inj {field field' rest rest' : List UInt8}
    (h : netstring field ++ rest = netstring field' ++ rest') : field = field' ∧ rest = rest' := by
  rw [netstring, netstring, List.append_assoc, List.append_assoc, List.cons_append,
    List.cons_append] at h
  obtain ⟨hdigits, hrest⟩ :=
    append_cons_inj (colon_notMem_digits _) (colon_notMem_digits _) h
  exact List.append_inj hrest (digits_injective hdigits)

theorem netstring_ne_nil (field : List UInt8) : netstring field ≠ [] := by
  simp [netstring]

/-- A sequence of netstrings names its fields. -/
theorem flatMap_netstring_injective {fields fields' : List (List UInt8)}
    (h : fields.flatMap netstring = fields'.flatMap netstring) : fields = fields' := by
  induction fields generalizing fields' with
  | nil =>
    cases fields' with
    | nil => rfl
    | cons field fields' =>
      rw [List.flatMap_cons] at h
      exact absurd (List.append_eq_nil_iff.1 h.symm).1 (netstring_ne_nil field)
  | cons field fields ih =>
    cases fields' with
    | nil =>
      rw [List.flatMap_cons] at h
      exact absurd (List.append_eq_nil_iff.1 h).1 (netstring_ne_nil field)
    | cons field' fields' =>
      rw [List.flatMap_cons, List.flatMap_cons] at h
      obtain ⟨rfl, hrest⟩ := netstring_append_inj h
      rw [ih hrest]

end Netstring
