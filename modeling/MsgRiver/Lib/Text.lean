import Mathlib.Data.Int.Notation
import Mathlib.Data.Nat.Notation
import Mathlib.Logic.Function.Basic
import Mathlib.Tactic.Common
import MsgRiver.Lib.Ascii

/-!
# Reading text out of bytes

The string operations of a line-oriented protocol reader, on lists of bytes and of characters:
finding a byte sequence, decoding UTF-8, splitting at a separator or at white space, trimming, and
reading an unsigned number with an upper bound.
-/

namespace Text

/-- The index of the first occurrence of `needle`. -/
def position {α : Type} [BEq α] (needle : List α) : List α → Option ℕ
  | [] => if needle.isEmpty then some 0 else none
  | a :: as =>
    if needle.isPrefixOf (a :: as) then some 0
    else (position needle as).map (· + 1)

/-- The characters of a valid UTF-8 sequence. -/
def decodeUtf8 (bytes : List UInt8) : Option (List Char) :=
  (String.fromUTF8? ⟨bytes.toArray⟩).map String.toList

/-- ASCII white space: space, tab, line feed, form feed, carriage return. -/
def isAsciiWhitespace (c : Char) : Bool :=
  c == ' ' || c == '\t' || c == '\n' || c == '\x0c' || c == '\r'

/-- The Unicode property `White_Space`. -/
def isWhitespace (c : Char) : Bool :=
  let n := c.toNat
  (0x9 ≤ n && n ≤ 0xd) || n == 0x20 || n == 0x85 || n == 0xa0 || n == 0x1680 ||
    (0x2000 ≤ n && n ≤ 0x200a) || n == 0x2028 || n == 0x2029 || n == 0x202f || n == 0x205f ||
    n == 0x3000

/-- White space removed at both ends. -/
def trim (cs : List Char) : List Char :=
  ((cs.dropWhile isWhitespace).reverse.dropWhile isWhitespace).reverse

/-- The parts between the separators that `sep` selects. -/
def splitOn (sep : Char → Bool) : List Char → List (List Char)
  | [] => [[]]
  | c :: cs =>
    if sep c then [] :: splitOn sep cs
    else
      match splitOn sep cs with
      | [] => [[c]]
      | part :: parts => (c :: part) :: parts

/-- The words between runs of ASCII white space. -/
def splitAsciiWhitespace (cs : List Char) : List (List Char) :=
  (splitOn isAsciiWhitespace cs).filter (!·.isEmpty)

/-- The parts between the occurrences of CR LF. -/
def splitCrLf : List Char → List (List Char)
  | [] => [[]]
  | '\r' :: '\n' :: cs => [] :: splitCrLf cs
  | c :: cs =>
    match splitCrLf cs with
    | [] => [[c]]
    | part :: parts => (c :: part) :: parts

/-- The parts before and after the first `c`. -/
def splitOnce (c : Char) (cs : List Char) : Option (List Char × List Char) :=
  match cs.dropWhile (· != c) with
  | [] => none
  | _ :: rest => some (cs.takeWhile (· != c), rest)

/-- The first line of a text that is not empty. -/
def firstLine (cs : List Char) : Option (List Char) :=
  if cs.isEmpty then none else some (cs.takeWhile (· != '\n'))

/-- Equality up to the case of ASCII letters. -/
def eqIgnoreAsciiCase (a b : List Char) : Bool := a.map Char.toLower == b.map Char.toLower

/-- An unsigned decimal number, with an optional plus sign, of at most `max`. -/
def parseUnsigned (max : ℕ) (cs : List Char) : Option ℕ :=
  let digits := match cs with
    | '+' :: rest => rest
    | _ => cs
  if digits.isEmpty || !digits.all Char.isDigit then none
  else
    let n := digits.foldl (fun n c => 10 * n + (c.toNat - '0'.toNat)) 0
    if n ≤ max then some n else none

/-- A decimal number without a sign. -/
def decimal (digits : List Char) : Option ℕ :=
  if digits.isEmpty || !digits.all Char.isDigit then none
  else some (digits.foldl (fun n c => 10 * n + (c.toNat - '0'.toNat)) 0)

/-- A decimal number with an optional sign. -/
def parseSigned : List Char → Option ℤ
  | '-' :: digits => (decimal digits).map fun n => -(n : ℤ)
  | '+' :: digits => (decimal digits).map fun n => (n : ℤ)
  | digits => (decimal digits).map fun n => (n : ℤ)

/-- The value of a hexadecimal digit. -/
def hexValue (c : Char) : Option ℕ :=
  if '0' ≤ c ∧ c ≤ '9' then some (c.toNat - '0'.toNat)
  else if 'a' ≤ c ∧ c ≤ 'f' then some (c.toNat - 'a'.toNat + 10)
  else if 'A' ≤ c ∧ c ≤ 'F' then some (c.toNat - 'A'.toNat + 10)
  else none

/-- A hexadecimal digit in lower case. -/
def lowerHexDigit (n : ℕ) : Char := "0123456789abcdef".toList.getD n '0'

theorem hexValue_lowerHexDigit {n : ℕ} (h : n < 16) : hexValue (lowerHexDigit n) = some n := by
  have hall : ∀ n < 16, hexValue (lowerHexDigit n) = some n := by decide
  exact hall n h

/-! ### Decoding -/

open Ascii in
theorem decodeUtf8_utf8Bytes (s : String) : decodeUtf8 (utf8Bytes s) = some s.toList := by
  have hbytes : (⟨(utf8Bytes s).toArray⟩ : ByteArray) = s.toByteArray := by simp [utf8Bytes]
  have hvalid : String.fromUTF8? s.toByteArray = some s := dif_pos s.isValidUTF8
  rw [decodeUtf8, hbytes, hvalid]
  rfl

open Ascii in
/-- The bytes that decode are those of the text. -/
theorem decodeUtf8_eq_some {bytes : List UInt8} {cs : List Char} :
    decodeUtf8 bytes = some cs ↔ utf8Bytes (String.ofList cs) = bytes := by
  constructor
  · intro h
    unfold decodeUtf8 String.fromUTF8? at h
    split_ifs at h with hvalid
    · cases h
      rw [String.ofList_toList]
      rfl
    · cases h
  · rintro rfl
    rw [decodeUtf8_utf8Bytes, String.toList_ofList]

open Ascii in
theorem utf8Bytes_injective {s t : String} (h : utf8Bytes s = utf8Bytes t) : s = t := by
  have hdecode := decodeUtf8_utf8Bytes s
  rw [h, decodeUtf8_utf8Bytes] at hdecode
  exact (String.toList_inj.1 (Option.some.inj hdecode)).symm

open Ascii in
theorem decodeUtf8_codes {cs : List Char} (h : ∀ c ∈ cs, c.toNat < 128) :
    decodeUtf8 (codes cs) = some cs := by
  rw [← utf8Bytes_of_ascii h, decodeUtf8_utf8Bytes, String.toList_ofList]

/-! ### The first occurrence -/

section Position

variable {α : Type} [BEq α] [LawfulBEq α]

/-- The first occurrence: the sequence stands there and nowhere before. -/
theorem position_eq_some_iff {needle xs : List α} {i : ℕ} :
    position needle xs = some i ↔
      i ≤ xs.length ∧ needle <+: xs.drop i ∧ ∀ j < i, ¬ needle <+: xs.drop j := by
  -- the search tries each suffix in turn
  induction xs generalizing i with
  | nil =>
    cases needle with
    | nil =>
      simp only [position, List.isEmpty_nil, if_true, Option.some.injEq, List.length_nil,
        Nat.le_zero, List.drop_nil, List.nil_prefix, true_and]
      constructor
      · rintro rfl
        exact ⟨rfl, by omega⟩
      · rintro ⟨rfl, -⟩
        rfl
    | cons a as => simp [position]
  | cons x xs ih =>
    rw [position]
    by_cases h : needle <+: x :: xs
    · rw [if_pos (List.isPrefixOf_iff_prefix.2 h), Option.some.injEq]
      constructor
      · rintro rfl
        exact ⟨Nat.zero_le _, h, by omega⟩
      · rintro ⟨-, -, hfirst⟩
        by_contra hne
        exact hfirst 0 (by omega) h
    · rw [if_neg (mt List.isPrefixOf_iff_prefix.1 h), Option.map_eq_some_iff]
      constructor
      · rintro ⟨k, hk, rfl⟩
        obtain ⟨hle, hat, hfirst⟩ := ih.1 hk
        refine ⟨by simpa using hle, hat, ?_⟩
        intro j hj
        cases j with
        | zero => exact h
        | succ j => exact hfirst j (by omega)
      · rintro ⟨hle, hat, hfirst⟩
        cases i with
        | zero => exact absurd hat h
        | succ k =>
          refine ⟨k, ih.2 ⟨by simpa using hle, hat, fun j hj => ?_⟩, rfl⟩
          exact hfirst (j + 1) (by omega)

theorem position_add_le {needle xs : List α} {i : ℕ} (h : position needle xs = some i) :
    i + needle.length ≤ xs.length := by
  obtain ⟨hle, hat, -⟩ := position_eq_some_iff.1 h
  have := hat.length_le
  rw [List.length_drop] at this
  omega

/-- An occurrence is not before the first one. -/
theorem exists_position_le {needle xs : List α} {j : ℕ} (hj : j ≤ xs.length)
    (h : needle <+: xs.drop j) : ∃ i ≤ j, position needle xs = some i := by
  induction xs generalizing j with
  | nil =>
    rw [List.drop_nil, List.prefix_nil] at h
    exact ⟨0, Nat.zero_le j, by simp [position, h]⟩
  | cons x xs ih =>
    rw [position]
    by_cases hhere : needle <+: x :: xs
    · exact ⟨0, Nat.zero_le j, if_pos (List.isPrefixOf_iff_prefix.2 hhere)⟩
    rw [if_neg (mt List.isPrefixOf_iff_prefix.1 hhere)]
    cases j with
    | zero => exact absurd h hhere
    | succ j =>
      obtain ⟨i, hi, hfirst⟩ := ih (by simpa using hj) h
      exact ⟨i + 1, by omega, by rw [hfirst]; rfl⟩

/-- What is read later does not move the first occurrence. -/
theorem position_append {needle xs : List α} {i : ℕ} (h : position needle xs = some i)
    (ys : List α) : position needle (xs ++ ys) = some i := by
  have hend := position_add_le h
  obtain ⟨hle, hat, hfirst⟩ := position_eq_some_iff.1 h
  refine position_eq_some_iff.2 ⟨by simp; omega, ?_, ?_⟩
  · rw [List.drop_append_of_le_length hle]
    exact hat.trans (List.prefix_append _ _)
  · intro j hj hlater
    refine hfirst j hj ?_
    rw [List.drop_append_of_le_length (by omega)] at hlater
    refine List.prefix_of_prefix_length_le hlater (List.prefix_append _ _) ?_
    rw [List.length_drop]
    omega

/-- The first occurrence is found as soon as it is complete. -/
theorem position_of_append {needle xs ys : List α} {i : ℕ}
    (h : position needle (xs ++ ys) = some i) (hend : i + needle.length ≤ xs.length) :
    position needle xs = some i := by
  obtain ⟨-, hat, hfirst⟩ := position_eq_some_iff.1 h
  refine position_eq_some_iff.2 ⟨by omega, ?_, ?_⟩
  · rw [List.drop_append_of_le_length (by omega)] at hat
    refine List.prefix_of_prefix_length_le hat (List.prefix_append _ _) ?_
    rw [List.length_drop]
    omega
  · intro j hj hearlier
    refine hfirst j hj ?_
    rw [List.drop_append_of_le_length (by omega)]
    exact hearlier.trans (List.prefix_append _ _)

/-- A part that ends before the first occurrence does has none. -/
theorem position_of_short {needle xs ys : List α} {i : ℕ}
    (h : position needle (xs ++ ys) = some i) (hshort : xs.length < i + needle.length) :
    position needle xs = none := by
  cases hearly : position needle xs with
  | none => rfl
  | some j =>
    obtain rfl : j = i := Option.some.inj ((position_append hearly ys).symm.trans h)
    have := position_add_le hearly
    omega

/-- The needle does not start within `xs`, whatever follows. -/
def Clears (needle xs : List α) : Prop :=
  ∀ j < xs.length, ¬ needle <+: xs.drop j ∧ ¬ xs.drop j <+: needle

theorem position_append_left {needle xs : List α} (h : Clears needle xs) (ys : List α) :
    position needle (xs ++ ys) = (position needle ys).map (· + xs.length) := by
  induction xs with
  | nil => simp
  | cons x xs ih =>
    have hhere : ¬ needle <+: x :: (xs ++ ys) := by
      intro hneedle
      obtain ⟨hafter, hwithin⟩ := h 0 (by simp)
      rcases List.prefix_or_prefix_of_prefix hneedle
        (show x :: xs <+: x :: (xs ++ ys) from List.prefix_append (x :: xs) ys) with hle | hle
      · exact hafter hle
      · exact hwithin hle
    have hrest : Clears needle xs := fun j hj => h (j + 1) (by simpa using hj)
    rw [List.cons_append, position, if_neg (mt List.isPrefixOf_iff_prefix.1 hhere), ih hrest,
      Option.map_map]
    congr 1

omit [BEq α] [LawfulBEq α] in
/-- Nothing that follows makes the needle start within texts that it does not start in. -/
theorem Clears.append {needle xs ys : List α} (h : Clears needle xs)
    (h' : Clears needle ys) : Clears needle (xs ++ ys) := by
  intro j hj
  by_cases hwithin : j < xs.length
  · obtain ⟨hafter, hbefore⟩ := h j hwithin
    rw [List.drop_append_of_le_length (by omega)]
    refine ⟨fun hneedle => ?_, fun hrest => hbefore ((List.prefix_append _ _).trans hrest)⟩
    rcases List.prefix_or_prefix_of_prefix hneedle (List.prefix_append _ ys) with hpre | hpre
    · exact hafter hpre
    · exact hbefore hpre
  · rw [List.length_append] at hj
    rw [List.drop_append, List.drop_of_length_le (by omega), List.nil_append]
    exact h' _ (by omega)

omit [BEq α] [LawfulBEq α] in
/-- A needle does not start where its first element is missing. -/
theorem clears_of_notMem {a : α} {needle xs : List α} (h : a ∉ xs) : Clears (a :: needle) xs := by
  intro j hj
  rw [List.drop_eq_getElem_cons hj]
  constructor
  · intro hneedle
    exact h ((List.cons_prefix_cons.1 hneedle).1 ▸ List.getElem_mem hj)
  · intro hneedle
    exact h ((List.cons_prefix_cons.1 hneedle).1 ▸ List.getElem_mem hj)

end Position

/-! ### Lines -/

theorem splitCrLf_of_notMem {line : List Char} (h : '\r' ∉ line) : splitCrLf line = [line] := by
  induction line with
  | nil => rfl
  | cons c cs ih =>
    simp only [List.mem_cons, not_or] at h
    rw [splitCrLf.eq_3 c cs (fun _ hc => absurd hc.symm h.1), ih h.2]

theorem splitCrLf_line {line : List Char} (h : '\r' ∉ line) (rest : List Char) :
    splitCrLf (line ++ '\r' :: '\n' :: rest) = line :: splitCrLf rest := by
  induction line with
  | nil => rfl
  | cons c cs ih =>
    simp only [List.mem_cons, not_or] at h
    rw [List.cons_append, splitCrLf.eq_3 c _ (fun _ hc => absurd hc.symm h.1), ih h.2]

theorem splitOnce_append {c : Char} {xs : List Char} (h : c ∉ xs) (ys : List Char) :
    splitOnce c (xs ++ c :: ys) = some (xs, ys) := by
  have hne : ∀ x ∈ xs, (x != c) = true := by
    intro x hx
    rw [bne_iff_ne]
    rintro rfl
    exact h hx
  unfold splitOnce
  rw [List.dropWhile_append_of_pos hne, List.takeWhile_append_of_pos hne]
  simp

/-! ### Parts -/

theorem splitOn_eq_splitOnP (sep : Char → Bool) (cs : List Char) :
    splitOn sep cs = cs.splitOnP sep := by
  induction cs with
  | nil => rfl
  | cons c cs ih =>
    rw [splitOn, List.splitOnP_cons_eq_if_modifyHead, ih]
    split
    · rfl
    · cases hparts : cs.splitOnP sep with
      | nil => exact absurd hparts (List.splitOnP_ne_nil sep cs)
      | cons part parts => rfl

theorem notMem_of_mem_splitOn {c : Char} {cs part : List Char} (h : part ∈ splitOn (· == c) cs) :
    c ∉ part := by
  induction cs generalizing part with
  | nil =>
    rw [List.mem_singleton.1 h]
    exact List.not_mem_nil
  | cons a cs ih =>
    rw [splitOn] at h
    split_ifs at h with ha
    · rcases List.mem_cons.1 h with rfl | hpart
      · exact List.not_mem_nil
      · exact ih hpart
    · have hne : c ≠ a := fun hc => ha (beq_iff_eq.2 hc.symm)
      cases hparts : splitOn (· == c) cs with
      | nil =>
        rw [hparts] at h
        rw [List.mem_singleton.1 h]
        simpa using hne
      | cons first parts =>
        rw [hparts] at h ih
        rcases List.mem_cons.1 h with rfl | hpart
        · rintro (_ | ⟨_, hc⟩)
          · exact hne rfl
          · exact ih List.mem_cons_self hc
        · exact ih (List.mem_cons_of_mem _ hpart)

/-- Splitting at `c` reads back the parts between the occurrences of `c`. -/
theorem splitOn_eq_iff {c : Char} {cs : List Char} {parts : List (List Char)} :
    splitOn (· == c) cs = parts ↔
      parts ≠ [] ∧ (∀ part ∈ parts, c ∉ part) ∧ [c].intercalate parts = cs := by
  constructor
  · rintro rfl
    refine ⟨?_, fun part => notMem_of_mem_splitOn, ?_⟩
    · rw [splitOn_eq_splitOnP]
      exact List.splitOnP_ne_nil _ _
    · rw [splitOn_eq_splitOnP, ← List.splitOn_eq_splitOnP, List.intercalate_splitOn]
  · rintro ⟨hne, hparts, rfl⟩
    rw [splitOn_eq_splitOnP, ← List.splitOn_eq_splitOnP, List.splitOn_intercalate c hparts hne]

theorem splitOnce_eq_some {c : Char} {cs xs ys : List Char} (h : splitOnce c cs = some (xs, ys)) :
    c ∉ xs ∧ cs = xs ++ c :: ys := by
  unfold splitOnce at h
  split at h
  · cases h
  · next head rest hdrop =>
    obtain ⟨rfl, rfl⟩ := Prod.mk.inj (Option.some.inj h)
    have hsplit := List.takeWhile_append_dropWhile (p := (· != c)) (l := cs)
    have hhead : head = c := by
      have hfalse := List.head_dropWhile_not (p := (· != c)) (l := cs) (by simp [hdrop])
      simpa [hdrop] using hfalse
    rw [hdrop, hhead] at hsplit
    refine ⟨fun hc => ?_, hsplit.symm⟩
    simpa using List.all_eq_true.1 List.all_takeWhile c hc

/-! ### Numbers -/

theorem isWhitespace_of_isDigit {c : Char} (h : c.isDigit = true) : isWhitespace c = false := by
  have hrange : 48 ≤ c.toNat ∧ c.toNat ≤ 57 := by
    simpa [Char.isDigit, UInt32.le_iff_toNat_le] using h
  have hspace : ¬ isWhitespace c = true := by
    simp only [isWhitespace, Bool.or_eq_true, Bool.and_eq_true, decide_eq_true_eq, beq_iff_eq]
    omega
  simpa using hspace

theorem isDigit_toDigits {n : ℕ} {c : Char} (h : c ∈ Nat.toDigits 10 n) : c.isDigit = true :=
  Nat.isDigit_of_mem_toDigits (by decide) (by decide) h

theorem dropWhile_isWhitespace_digits {digits : List Char}
    (h : ∀ c ∈ digits, c.isDigit = true) : digits.dropWhile isWhitespace = digits := by
  cases digits with
  | nil => rfl
  | cons c cs => simp [isWhitespace_of_isDigit (h c (by simp))]

/-- A number behind a blank, as a header value. -/
theorem trim_toDigits (n : ℕ) : trim (' ' :: Nat.toDigits 10 n) = Nat.toDigits 10 n := by
  have hspace : isWhitespace ' ' = true := by decide
  unfold trim
  rw [List.dropWhile_cons_of_pos hspace,
    dropWhile_isWhitespace_digits (fun c hc => isDigit_toDigits hc),
    dropWhile_isWhitespace_digits (fun c hc => isDigit_toDigits (List.mem_reverse.1 hc)),
    List.reverse_reverse]

/-- A digit is no sign, so a list of digits is read as it stands. -/
theorem parseUnsigned_digits {max : ℕ} {digits : List Char} (hne : digits ≠ [])
    (hall : digits.all Char.isDigit = true) :
    parseUnsigned max digits = if Nat.ofDigitChars 10 digits 0 ≤ max
      then some (Nat.ofDigitChars 10 digits 0) else none := by
  have hempty : digits.isEmpty = false := by
    rwa [List.isEmpty_eq_false_iff]
  unfold parseUnsigned
  split
  · simp at hall
  · simp only [hempty, hall, Bool.not_true, Bool.or_self, Bool.false_eq_true, if_false,
      Nat.ofDigitChars_eq_foldl]

/-- A number is read back from its digits. -/
theorem parseUnsigned_toDigits (max n : ℕ) :
    parseUnsigned max (Nat.toDigits 10 n) = if n ≤ max then some n else none := by
  rw [parseUnsigned_digits Nat.toDigits_ne_nil
    (List.all_eq_true.2 fun c hc => isDigit_toDigits hc), Nat.ofDigitChars_ten_toDigits]

end Text
