import MsgRiver.Lib.Bytes

/-!
# Length-prefixed parts

A list of byte strings is written part by part, each behind its length in `w` big-endian bytes.
No two lists of parts are written alike, whatever the parts hold and however many they are, as long
as every length fits.
-/

namespace Framing

open Bytes

/-- The parts, each behind its length. -/
def framed (w : ℕ) (parts : List (List UInt8)) : List UInt8 :=
  parts.flatMap fun part => digits w part.length ++ part

/-- Every length fits in `w` bytes. -/
def Short (w : ℕ) (parts : List (List UInt8)) : Prop := ∀ part ∈ parts, part.length < 256 ^ w

@[simp] theorem framed_nil (w : ℕ) : framed w [] = [] := rfl

@[simp] theorem framed_cons (w : ℕ) (part : List UInt8) (parts : List (List UInt8)) :
    framed w (part :: parts) = digits w part.length ++ (part ++ framed w parts) := by
  simp [framed]

/-- The digits of a number that fits are its own. -/
theorem digits_injective {w m n : ℕ} (hm : m < 256 ^ w) (hn : n < 256 ^ w)
    (h : digits w m = digits w n) : m = n := by
  have hvalue := congrArg value h
  rwa [value_digits, value_digits, Nat.mod_eq_of_lt hm, Nat.mod_eq_of_lt hn] at hvalue

/-- What follows a part does not blur where it ends. -/
theorem framed_injective {w : ℕ} (hw : 0 < w) {parts parts' : List (List UInt8)}
    (hparts : Short w parts) (hparts' : Short w parts')
    (h : framed w parts = framed w parts') : parts = parts' := by
  have hpos : ∀ n : ℕ, digits w n ≠ [] := by
    intro n hnil
    have := congrArg List.length hnil
    rw [length_digits, List.length_nil] at this
    omega
  induction parts generalizing parts' with
  | nil =>
    cases parts' with
    | nil => rfl
    | cons part' parts' =>
      rw [framed_nil, framed_cons] at h
      exact absurd (List.append_eq_nil_iff.1 h.symm).1 (hpos _)
  | cons part parts ih =>
    cases parts' with
    | nil =>
      rw [framed_nil, framed_cons] at h
      exact absurd (List.append_eq_nil_iff.1 h).1 (hpos _)
    | cons part' parts' =>
      rw [framed_cons, framed_cons] at h
      obtain ⟨hlength, hrest⟩ := List.append_inj h (by simp)
      have hsame : part.length = part'.length := digits_injective
        (hparts part List.mem_cons_self) (hparts' part' List.mem_cons_self) hlength
      obtain ⟨rfl, hlater⟩ := List.append_inj hrest hsame
      rw [ih (fun p hp => hparts p (List.mem_cons_of_mem _ hp))
        (fun p hp => hparts' p (List.mem_cons_of_mem _ hp)) hlater]

/-- A part ends where its length says, whatever follows. -/
theorem framed_singleton_append_inj {w : ℕ} {part part' rest rest' : List UInt8}
    (h : part.length < 256 ^ w) (h' : part'.length < 256 ^ w)
    (heq : framed w [part] ++ rest = framed w [part'] ++ rest') : part = part' ∧ rest = rest' := by
  simp only [framed_cons, framed_nil, List.append_nil, List.append_assoc] at heq
  obtain ⟨hlength, hrest⟩ := List.append_inj heq (by simp)
  exact List.append_inj hrest (digits_injective h h' hlength)

/-- Two lists of parts in front of other bytes: one list continues the other. -/
theorem framed_append_cases {w : ℕ} {parts parts' : List (List UInt8)} {rest rest' : List UInt8}
    (h : Short w parts) (h' : Short w parts')
    (heq : framed w parts ++ rest = framed w parts' ++ rest') :
    (∃ more, parts' = parts ++ more ∧ rest = framed w more ++ rest') ∨
      ∃ more, parts = parts' ++ more ∧ rest' = framed w more ++ rest := by
  induction parts generalizing parts' with
  | nil => exact Or.inl ⟨parts', rfl, heq⟩
  | cons part parts ih =>
    cases parts' with
    | nil => exact Or.inr ⟨part :: parts, rfl, heq.symm⟩
    | cons part' parts' =>
      have hcons : ∀ (p : List UInt8) (ps : List (List UInt8)),
          framed w (p :: ps) = framed w [p] ++ framed w ps := by
        intro p ps
        simp
      rw [hcons part, hcons part', List.append_assoc, List.append_assoc] at heq
      obtain ⟨rfl, hrest⟩ := framed_singleton_append_inj (h part List.mem_cons_self)
        (h' part' List.mem_cons_self) heq
      rcases ih (fun p hp => h p (List.mem_cons_of_mem _ hp))
        (fun p hp => h' p (List.mem_cons_of_mem _ hp)) hrest with ⟨more, rfl, hmore⟩ |
          ⟨more, rfl, hmore⟩
      · exact Or.inl ⟨more, rfl, hmore⟩
      · exact Or.inr ⟨more, rfl, hmore⟩

theorem length_framed_ge (w : ℕ) (parts : List (List UInt8)) :
    w * parts.length ≤ (framed w parts).length := by
  induction parts with
  | nil => exact Nat.zero_le _
  | cons part parts ih =>
    simp only [framed_cons, List.length_append, length_digits, List.length_cons, Nat.mul_succ]
    omega

/-- Append a part behind its length in a fixed-width integer, when that holds it. -/
def appendPart (α : Type) [FixedWidth α] (bytes part : List UInt8) : Option (List UInt8) :=
  (ofNat? part.length : Option α).map fun length => bytes ++ wire length ++ part

/-- Appending part by part is framing. -/
theorem foldlM_appendPart {α : Type} [FixedWidth α] {parts : List (List UInt8)}
    {bytes input : List UInt8} :
    parts.foldlM (appendPart α) bytes = some input ↔
      Short (FixedWidth.width α) parts ∧ input = bytes ++ framed (FixedWidth.width α) parts := by
  induction parts generalizing bytes with
  | nil => simp [Short, eq_comm]
  | cons part parts ih =>
    simp only [List.foldlM_cons, appendPart, Option.bind_eq_bind, Option.bind_eq_some_iff,
      Option.map_eq_some_iff, ofNat?_eq_some]
    constructor
    · rintro ⟨_, ⟨length, hlength, rfl⟩, hrest⟩
      obtain ⟨hshort, rfl⟩ := ih.1 hrest
      refine ⟨?_, ?_⟩
      · intro p hp
        rcases List.mem_cons.1 hp with rfl | hp
        · exact hlength ▸ FixedWidth.toNat_lt length
        · exact hshort p hp
      · rw [framed_cons, wire, hlength]
        simp only [List.append_assoc]
    · rintro ⟨hshort, rfl⟩
      have hpart : part.length < 256 ^ FixedWidth.width α := hshort part List.mem_cons_self
      have hlength := FixedWidth.toNat_ofNat (α := α) part.length hpart
      refine ⟨_, ⟨FixedWidth.ofNat part.length, hlength, rfl⟩, ih.2 ⟨?_, ?_⟩⟩
      · exact fun p hp => hshort p (List.mem_cons_of_mem _ hp)
      · rw [framed_cons, wire, hlength]
        simp only [List.append_assoc]

/-- A domain that no other one starts with tells two byte strings apart. -/
theorem append_ne_append {domain domain' : List UInt8} (h : ¬ domain <+: domain')
    (h' : ¬ domain' <+: domain) (bytes bytes' : List UInt8) :
    domain ++ bytes ≠ domain' ++ bytes' := by
  intro heq
  rcases List.prefix_or_prefix_of_prefix (List.prefix_append domain bytes)
    (heq ▸ List.prefix_append domain' bytes') with hle | hle
  · exact h hle
  · exact h' hle

end Framing
