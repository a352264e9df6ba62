import MsgRiver.Lib.JsonDialect
import MsgRiver.Lib.JsonGrammar

/-!
# JSON on characters and on bytes

RFC 8259 is here twice: on characters, with the values that programs build (`JsonGrammar`), and on
bytes, as one of several dialects (`JsonDialect`).  The encoding of a text of the first grammar is a
text of the second one, and stands for the same value (`IsText.encoded`), so that what holds of all
texts on bytes need not be shown on characters again.

The converse would fail: on characters an escape does not name half of a surrogate pair.
-/

namespace JsonGrammar

open Json JsonText Ascii Text
open JsonDialect (rfc8259 Tree Run IsWhite White IsDigit Digits utf16 Derives)

/-- The bytes of a text. -/
def bytesOf (text : List Char) : List UInt8 := text.flatMap String.utf8EncodeChar

@[simp] theorem bytesOf_append (front text : List Char) :
    bytesOf (front ++ text) = bytesOf front ++ bytesOf text := List.flatMap_append ..

@[simp] theorem bytesOf_cons (c : Char) (text : List Char) :
    bytesOf (c :: text) = String.utf8EncodeChar c ++ bytesOf text := rfl

@[simp] theorem bytesOf_nil : bytesOf [] = [] := rfl

mutual

/-- What a value is on bytes: numbers and the literal names are not told apart. -/
def treeOf : Value → Tree
  | .null => .atom
  | .bool _ => .atom
  | .number _ => .atom
  | .string s => .string (s.toList.flatMap utf16)
  | .array items => .array (treesOf items)
  | .object entries => .object (membersOf entries)

/-- The items of an array. -/
def treesOf : List Value → List Tree
  | [] => []
  | item :: items => treeOf item :: treesOf items

/-- The members of an object, with the code units of their names. -/
def membersOf : List (String × Value) → List (List ℕ × Tree)
  | [] => []
  | (key, value) :: entries => (key.toList.flatMap utf16, treeOf value) :: membersOf entries

end

/-! ### White space and numbers -/

/-- The characters that the grammar names are their own bytes. -/
theorem encoding_marks : String.utf8EncodeChar '"' = [0x22] ∧ String.utf8EncodeChar '\\' = [0x5c] ∧
    String.utf8EncodeChar 'u' = [0x75] ∧ String.utf8EncodeChar '[' = [0x5b] ∧
    String.utf8EncodeChar ']' = [0x5d] ∧ String.utf8EncodeChar '{' = [0x7b] ∧
    String.utf8EncodeChar '}' = [0x7d] ∧ String.utf8EncodeChar ',' = [0x2c] ∧
    String.utf8EncodeChar ':' = [0x3a] := by decide

theorem encoding_ascii {c : Char} (h : c.toNat < 128) :
    ∃ b, String.utf8EncodeChar c = [b] ∧ b.toNat = c.toNat :=
  ⟨UInt8.ofNat c.toNat, utf8EncodeChar_of_ascii h,
    UInt8.toNat_ofNat_of_lt' (Nat.lt_trans h (by decide))⟩

theorem encoding_ws {c : Char} (h : IsWsChar c) :
    ∃ b, String.utf8EncodeChar c = [b] ∧ IsWhite rfc8259 b := by
  rcases h with rfl | rfl | rfl | rfl
  · exact ⟨0x20, by decide, .inl rfl⟩
  · exact ⟨0x09, by decide, .inr (.inl rfl)⟩
  · exact ⟨0x0a, by decide, .inr (.inr (.inl rfl))⟩
  · exact ⟨0x0d, by decide, .inr (.inr (.inr (.inl rfl)))⟩

theorem IsWs.white {text : List Char} (h : IsWs text) (rest : List UInt8) :
    White rfc8259 (bytesOf text ++ rest) rest := by
  refine ⟨bytesOf text, rfl, fun b hb => ?_⟩
  obtain ⟨c, hc, hbyte⟩ := List.mem_flatMap.1 hb
  obtain ⟨b', hb', hwhite⟩ := encoding_ws (h c hc)
  rw [hb', List.mem_singleton] at hbyte
  rwa [hbyte]

theorem encoding_digit {c : Char} (h : c.isDigit = true) :
    ∃ b, String.utf8EncodeChar c = [b] ∧ IsDigit b ∧ b.toNat = c.toNat := by
  have hbounds : 48 ≤ c.toNat ∧ c.toNat ≤ 57 := by
    simpa [Char.isDigit, UInt32.le_iff_toNat_le] using h
  obtain ⟨b, hb, hsame⟩ := encoding_ascii (c := c) (by omega)
  refine ⟨b, hb, ⟨?_, ?_⟩, hsame⟩
  · rw [UInt8.le_iff_toNat_le, hsame]
    exact hbounds.1
  · rw [UInt8.le_iff_toNat_le, hsame]
    exact hbounds.2

theorem run_of_digits {text : List Char} (h : ∀ c ∈ text, c.isDigit = true) (rest : List UInt8) :
    Run IsDigit (bytesOf text ++ rest) rest := by
  refine ⟨bytesOf text, rfl, fun b hb => ?_⟩
  obtain ⟨c, hc, hbyte⟩ := List.mem_flatMap.1 hb
  obtain ⟨b', hb', hdigit, -⟩ := encoding_digit (h c hc)
  rw [hb', List.mem_singleton] at hbyte
  rwa [hbyte]

theorem IsDigits.digits {text : List Char} (h : IsDigits text) (rest : List UInt8) :
    Digits (bytesOf text ++ rest) rest := by
  obtain ⟨hne, hdigits⟩ := h
  obtain ⟨c, cs, rfl⟩ := List.exists_cons_of_ne_nil hne
  obtain ⟨b, hb, hdigit, -⟩ := encoding_digit (hdigits c List.mem_cons_self)
  refine ⟨b, bytesOf cs ++ rest, ?_, hdigit,
    run_of_digits (fun c' hc' => hdigits c' (List.mem_cons_of_mem _ hc')) rest⟩
  rw [bytesOf_cons, hb]
  rfl

/-- A whole part is a zero, or starts with another digit. -/
theorem whole_of_digits {int : List Char} (h : IsDigits int)
    (hzero : int.head? = some '0' → int = ['0']) (rest : List UInt8) :
    bytesOf int ++ rest = 0x30 :: rest ∨ ∃ b more, bytesOf int ++ rest = b :: more ∧
      (0x31 ≤ b ∧ b ≤ 0x39) ∧ Run IsDigit more rest := by
  obtain ⟨hne, hdigits⟩ := h
  obtain ⟨c, cs, rfl⟩ := List.exists_cons_of_ne_nil hne
  obtain ⟨b, hb, hdigit, hsame⟩ := encoding_digit (hdigits c List.mem_cons_self)
  by_cases hc : c = '0'
  · subst hc
    obtain rfl : cs = [] := (List.cons.inj (hzero rfl)).2
    exact .inl rfl
  · refine .inr ⟨b, bytesOf cs ++ rest, by rw [bytesOf_cons, hb]; rfl, ⟨?_, hdigit.2⟩,
      run_of_digits (fun c' hc' => hdigits c' (List.mem_cons_of_mem _ hc')) rest⟩
    have hlow := UInt8.le_iff_toNat_le.1 hdigit.1
    have hother : b.toNat ≠ 48 := by
      rw [hsame]
      intro heq
      exact hc (by rw [← Char.ofNat_toNat c, heq])
    rw [UInt8.le_iff_toNat_le]
    simp at hlow ⊢
    omega

theorem IsNumber.number {text : List Char} (h : IsNumber text) (rest : List UInt8) :
    JsonDialect.Number (bytesOf text ++ rest) rest := by
  obtain @⟨minus, int, frac, exp, hminus, ⟨hint, hzero⟩, hfrac, hexp⟩ := h
  simp only [bytesOf_append, List.append_assoc]
  refine @JsonDialect.Number.mk _ (bytesOf int ++ (bytesOf frac ++ (bytesOf exp ++ rest)))
    (bytesOf frac ++ (bytesOf exp ++ rest)) (bytesOf exp ++ rest) rest ?_
    (whole_of_digits hint hzero _) ?_ ?_
  · rcases hminus with rfl | rfl
    · exact .inl rfl
    · exact .inr rfl
  · rcases hfrac with rfl | ⟨digits, hdigits, rfl⟩
    · exact .inl rfl
    · exact .inr ⟨bytesOf digits ++ (bytesOf exp ++ rest), rfl, hdigits.digits _⟩
  · rcases hexp with rfl | ⟨e, sign, digits, he, hsign, hdigits, rfl⟩
    · exact .inl rfl
    · have hletter : ∃ b, String.utf8EncodeChar e = [b] ∧ (b = 0x65 ∨ b = 0x45) := by
        rcases he with rfl | rfl
        · exact ⟨0x65, by decide, .inl rfl⟩
        · exact ⟨0x45, by decide, .inr rfl⟩
      obtain ⟨b, hb, hletter⟩ := hletter
      refine .inr ⟨b, bytesOf sign ++ (bytesOf digits ++ rest), bytesOf digits ++ rest, ?_, hletter,
        ?_, hdigits.digits rest⟩
      · rw [bytesOf_cons, bytesOf_append, hb, List.append_assoc, List.append_assoc]
        rfl
      · rcases hsign with rfl | rfl | rfl
        · exact .inl rfl
        · exact .inr (.inl rfl)
        · exact .inr (.inr rfl)

/-! ### Strings -/

theorem encoding_hexValue {c : Char} {n : ℕ} (h : hexValue c = some n) :
    ∃ b, String.utf8EncodeChar c = [b] ∧ JsonDialect.hexDigit b = some n := by
  simp only [hexValue, Char.le_def, UInt32.le_iff_toNat_le] at h
  have hbounds : c.toNat < 128 := by
    by_contra hlong
    have hlong : ¬ c.val.toNat < 128 := hlong
    rw [if_neg (by simp; omega), if_neg (by simp; omega), if_neg (by simp; omega)] at h
    cases h
  obtain ⟨b, hb, hsame⟩ := encoding_ascii hbounds
  refine ⟨b, hb, ?_⟩
  simp only [JsonDialect.hexDigit, UInt8.le_iff_toNat_le, hsame]
  exact h

theorem encoding_hexCode {a b c d : Char} {n : ℕ} (h : hexCode a b c d = some n) :
    JsonDialect.hexCode (bytesOf [a, b, c, d]) = some n := by
  simp only [hexCode, Option.bind_eq_bind, Option.bind_eq_some_iff, Option.pure_def,
    Option.some.injEq] at h
  obtain ⟨_, ha, _, hb, _, hc, _, hd, rfl⟩ := h
  obtain ⟨_, hba, hda⟩ := encoding_hexValue ha
  obtain ⟨_, hbb, hdb⟩ := encoding_hexValue hb
  obtain ⟨_, hbc, hdc⟩ := encoding_hexValue hc
  obtain ⟨_, hbd, hdd⟩ := encoding_hexValue hd
  simp [hba, hbb, hbc, hbd, JsonDialect.hexCode, hda, hdb, hdc, hdd]

theorem encoding_unescape {e c : Char} (h : unescape e = some c) :
    ∃ letter, String.utf8EncodeChar e = [letter] ∧ JsonDialect.letterUnit letter = some c.toNat ∧
      utf16 c = [c.toNat] := by
  unfold unescape at h
  split at h <;> first | (cases h; exact ⟨_, rfl, rfl, rfl⟩) | cases h

/-- An escape of four digits is a piece, also where it names half of a pair. -/
theorem piece_of_code {a b c d : Char} {code : ℕ} (h : hexCode a b c d = some code)
    (rest : List UInt8) :
    JsonDialect.Piece rfc8259 (bytesOf ['\\', 'u', a, b, c, d] ++ rest) [code] rest := by
  have hunit : JsonDialect.codeUnit rfc8259 (bytesOf [a, b, c, d]) = some code :=
    JsonDialect.codeUnit_eq_some.2 ⟨encoding_hexCode h, fun _ => rfl⟩
  have hpiece : JsonDialect.Piece rfc8259 (0x5c :: 0x75 :: (bytesOf [a, b, c, d] ++ rest)) [code]
    rest := .code hunit
  exact hpiece

/-- A pair of surrogates names a character with these two code units. -/
theorem utf16_of_surrogates {high low : ℕ} (hhigh : 0xd800 ≤ high ∧ high ≤ 0xdbff)
    (hlow : 0xdc00 ≤ low ∧ low ≤ 0xdfff) :
    utf16 (Char.ofNat (0x10000 + (high - 0xd800) * 0x400 + (low - 0xdc00))) = [high, low] := by
  obtain ⟨code, hcode⟩ : ∃ code, code = 0x10000 + (high - 0xd800) * 0x400 + (low - 0xdc00) :=
    ⟨_, rfl⟩
  have hvalid : code.isValidChar := .inr ⟨by omega, by omega⟩
  have hfirst : 0xd800 + (code - 0x10000) / 0x400 = high := by omega
  have hsecond : 0xdc00 + (code - 0x10000) % 0x400 = low := by omega
  rw [← hcode, utf16, JsonDialect.toNat_ofNat_valid hvalid, if_neg (by omega), hfirst, hsecond]

theorem CharToken.contents {written : List Char} {c : Char} {text rest : List UInt8}
    {units : List ℕ} (h : CharToken written c)
    (hmore : JsonDialect.Contents rfc8259 text units rest) :
    JsonDialect.Contents rfc8259 (bytesOf written ++ text) (utf16 c ++ units) rest := by
  cases h with
  | unescaped hquote hslash hplain =>
    rw [bytesOf_cons, bytesOf_nil, List.append_nil]
    exact .piece (.unescaped hquote hslash hplain) hmore
  | escape he =>
    obtain ⟨letter, hletter, hunit, hutf16⟩ := encoding_unescape he
    rw [hutf16, bytesOf_cons, bytesOf_cons, hletter]
    exact .piece (.escape hunit) hmore
  | code hescape =>
    rw [unicodeEscape_eq] at hescape
    obtain ⟨code, hcode, hchar⟩ := Option.bind_eq_some_iff.1 hescape
    split_ifs at hchar with hsurrogate
    obtain rfl := Option.some.inj hchar
    have hlt := JsonDialect.hexCode_lt (encoding_hexCode hcode)
    have hvalid : code.isValidChar := by
      unfold Nat.isValidChar
      omega
    rw [JsonDialect.utf16_ofNat hvalid hlt]
    exact .piece (piece_of_code hcode text) hmore
  | surrogates hhigh hlow hrange hrange' =>
    rw [utf16_of_surrogates hrange hrange']
    have hsecond := JsonDialect.Contents.piece (piece_of_code hlow text) hmore
    have hfirst := JsonDialect.Contents.piece (piece_of_code hhigh _) hsecond
    rwa [← List.append_assoc, ← bytesOf_append] at hfirst

theorem Contents.contents {text cs : List Char} (h : Contents text cs) (rest : List UInt8) :
    JsonDialect.Contents rfc8259 (bytesOf text ++ 0x22 :: rest) (cs.flatMap utf16) rest := by
  induction h with
  | nil => exact .close
  | cons hc _ ih =>
    rw [bytesOf_append, List.append_assoc, List.flatMap_cons]
    exact hc.contents ih

theorem StringToken.contents {text cs : List Char} (h : StringToken text cs) (rest : List UInt8) :
    ∃ contents, bytesOf text ++ rest = 0x22 :: contents ∧
      JsonDialect.Contents rfc8259 contents (cs.flatMap utf16) rest := by
  obtain ⟨contents, rfl, hcontents⟩ := h
  refine ⟨bytesOf contents ++ 0x22 :: rest, ?_, hcontents.contents rest⟩
  simp [encoding_marks]

/-! ### Values -/

mutual

theorem Denotes.derives {text : List Char} {value : Value} (h : Denotes text value)
    (rest : List UInt8) : Derives rfc8259 (.value (treeOf value)) (bytesOf text ++ rest) rest := by
  cases h with
  | null => exact .null
  | false => exact .false
  | true => exact .true
  | number h => exact .number (h.number rest)
  | string h =>
    obtain ⟨contents, htext, hcontents⟩ := h.contents rest
    rw [treeOf, String.toList_ofList, htext]
    exact .string hcontents
  | emptyArray h =>
    rw [treeOf, treesOf]
    simpa [encoding_marks] using Derives.emptyArray (h.white (0x5d :: rest))
  | array h =>
    rw [treeOf]
    simpa [encoding_marks] using Derives.array (Items.derives h rest)
  | emptyObject h =>
    rw [treeOf, membersOf]
    simpa [encoding_marks] using Derives.emptyObject (h.white (0x7d :: rest))
  | object h =>
    rw [treeOf]
    simpa [encoding_marks] using Derives.object (Members.derives h rest)

theorem Items.derives {text : List Char} {items : List Value} (h : Items text items)
    (rest : List UInt8) :
    Derives rfc8259 (.items (treesOf items)) (bytesOf text ++ 0x5d :: rest) rest := by
  cases h with
  | last hbefore htext hafter =>
    rw [treesOf, treesOf, bytesOf_append, bytesOf_append, List.append_assoc, List.append_assoc]
    exact .lastItem (hbefore.white _) (Denotes.derives htext _) (hafter.white _)
  | more hbefore htext hafter hrest =>
    have hmore := Items.derives hrest rest
    have hitem := Derives.moreItems (hbefore.white _) (Denotes.derives htext _) (hafter.white _)
      hmore
    rw [treesOf]
    simpa [encoding_marks] using hitem

theorem Members.derives {text : List Char} {entries : List (String × Value)}
    (h : Members text entries) (rest : List UInt8) :
    Derives rfc8259 (.members (membersOf entries)) (bytesOf text ++ 0x7d :: rest) rest := by
  cases h with
  | @last _ entry htext =>
    obtain ⟨key, value⟩ := entry
    obtain ⟨name, colon, text', text'', after, hbefore, hname, hcolon, hbefore', hvalue, hafter⟩ :=
      Member.derives htext (0x7d :: rest)
    rw [membersOf, membersOf]
    exact .lastMember hbefore hname hcolon hbefore' hvalue hafter
  | @more _ _ entry _ htext hrest =>
    obtain ⟨key, value⟩ := entry
    have hmore := Members.derives hrest rest
    obtain ⟨name, colon, text', text'', after, hbefore, hname, hcolon, hbefore', hvalue, hafter⟩ :=
      Member.derives htext (0x2c :: (bytesOf _ ++ 0x7d :: rest))
    have hmember := Derives.moreMembers hbefore hname hcolon hbefore' hvalue hafter hmore
    rw [membersOf]
    simpa [encoding_marks] using hmember

/-- The parts of a member. -/
theorem Member.derives {text : List Char} {entry : String × Value} (h : Member text entry)
    (rest : List UInt8) : ∃ name colon text' text'' after,
      White rfc8259 (bytesOf text ++ rest) (0x22 :: name) ∧
      JsonDialect.Contents rfc8259 name (entry.1.toList.flatMap utf16) colon ∧
      White rfc8259 colon (0x3a :: text') ∧ White rfc8259 text' text'' ∧
      Derives rfc8259 (.value (treeOf entry.2)) text'' after ∧ White rfc8259 after rest := by
  cases h with
  | @mk before _ after before' inner after' _ _ hbefore hname hafter hbefore' htext hafter' =>
    obtain ⟨contents, hquoted, hcontents⟩ := hname.contents
      (bytesOf after ++ 0x3a :: (bytesOf before' ++ (bytesOf inner ++ (bytesOf after' ++ rest))))
    refine ⟨contents, _, _, _, _, ?_, ?_, hafter.white _, hbefore'.white _,
      Denotes.derives htext _, hafter'.white rest⟩
    · have hwhole := congrArg (bytesOf before ++ ·) hquoted
      simp only [bytesOf_append, bytesOf_cons, encoding_marks, List.append_assoc, List.cons_append,
        List.nil_append] at hwhole ⊢
      rw [hwhole]
      exact hbefore.white (0x22 :: contents)
    · rw [String.toList_ofList]
      exact hcontents

end

/-- **The encoding of a text is a text.** -/
theorem IsText.encoded {text : List Char} {value : Value} (h : IsText text value) :
    JsonDialect.Text rfc8259 (bytesOf text) (treeOf value) := by
  obtain ⟨before, inner, after, hbefore, hinner, hafter, rfl⟩ := h
  have hend := hafter.white []
  rw [List.append_nil] at hend
  refine ⟨bytesOf inner ++ bytesOf after, bytesOf after, ?_, hinner.derives (bytesOf after), hend⟩
  rw [bytesOf_append, bytesOf_append]
  exact hbefore.white (bytesOf inner ++ bytesOf after)

end JsonGrammar
