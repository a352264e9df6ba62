import MsgRiver.Lib.JsonDialect
import MsgRiver.Lib.Result
import MsgRiver.Lib.Text

/-!
# The JSON parser of the callback

`JsonParser` reads a callback body by position.  A slice with bounds stops the program when they are
out of range; the loops and the recursion are counted by `fuel`.

* `string_answers`: the contents of a string that is read;
* `atomNumber_answers`: the numbers that are read.
-/

namespace MsgRiver.PhaseZero

open Result Text

/-- A value as far as callbacks read it; numbers, booleans and `null` are not told apart. -/
inductive JsonValue
  | object (members : List (List Char × JsonValue))
  | array (values : List JsonValue)
  | string (text : List Char)
  | atom

namespace JsonParser

/-- Why a call does not return a value: `Err(())`, a slice out of range, or no fuel. -/
inductive Stop
  | refused
  | panicked
  | exhausted
  deriving DecidableEq

/-- `u8::is_ascii_whitespace`. -/
def isAsciiWhitespace (b : UInt8) : Bool :=
  b == 0x20 || b == 0x09 || b == 0x0a || b == 0x0c || b == 0x0d

/-- `u8::is_ascii_digit`. -/
def isAsciiDigit (b : UInt8) : Bool := 0x30 ≤ b && b ≤ 0x39

variable (bytes : List UInt8)

/-- The loop that moves the position while there is a byte of the given kind. -/
def skipWhile (p : UInt8 → Bool) (position : ℕ) : ℕ :=
  position + ((bytes.drop position).takeWhile p).length

/-- The position behind white space. -/
def whitespace (position : ℕ) : ℕ := skipWhile bytes isAsciiWhitespace position

/-! ### Strings -/

/-- `str::from_utf8(&bytes[segment..position])`. -/
def pushedText (segment position : ℕ) : Except Stop (List Char) := do
  reject (!(segment ≤ position && position ≤ bytes.length)) .panicked
  orError .refused (decodeUtf8 ((bytes.drop segment).take (position - segment)))

/-- `bytes.get(a..b)`. -/
def getRange (a b : ℕ) : Option (List UInt8) :=
  if a ≤ b ∧ b ≤ bytes.length then some ((bytes.drop a).take (b - a)) else none

/-- The digits of `u16::from_str_radix(_, 16)`. -/
def fromHexDigits (digits : List UInt8) : Option ℕ :=
  digits.foldlM (fun scalar b => (JsonDialect.hexDigit b).bind fun digit =>
    if scalar * 16 + digit < 2 ^ 16 then some (scalar * 16 + digit) else none) 0

/-- `u16::from_str_radix(_, 16)`, which admits a sign before the digits. -/
def fromStrRadix (hex : List UInt8) : Option ℕ :=
  match hex with
  | [] => none
  | b :: digits =>
    if b = 0x2b then (if digits = [] then none else fromHexDigits digits) else fromHexDigits hex

/-- `char::from_u32`. -/
def charFromU32 (scalar : ℕ) : Option Char :=
  if scalar.isValidChar then some (Char.ofNat scalar) else none

/-- The character of an escape of one letter. -/
def letterEscape (escaped : UInt8) : Option Char :=
  if escaped = 0x22 then some '"'
  else if escaped = 0x5c then some '\\'
  else if escaped = 0x2f then some '/'
  else if escaped = 0x62 then some '\x08'
  else if escaped = 0x66 then some '\x0c'
  else if escaped = 0x6e then some '\n'
  else if escaped = 0x72 then some '\r'
  else if escaped = 0x74 then some '\t'
  else none

/-- The character of the escape whose letter stands at the position, and where it ends. -/
def escape (position : ℕ) : Except Stop (Char × ℕ) := do
  let escaped ← orError .refused bytes[position]?
  match letterEscape escaped with
  | some character => return (character, position + 1)
  | none =>
    reject (escaped != 0x75) .refused
    let hex ← orError .refused (getRange bytes (position + 1) (position + 5))
    reject (decodeUtf8 hex).isNone .refused
    let scalar ← orError .refused (fromStrRadix hex)
    let character ← orError .refused (charFromU32 scalar)
    return (character, position + 5)

/-- The loop of `string`. -/
def stringFrom : ℕ → ℕ → ℕ → List Char → Except Stop (List Char × ℕ)
  | 0, _, _, _ => .error .exhausted
  | fuel + 1, segment, position, result => do
    let byte ← orError .refused bytes[position]?
    if byte = 0x22 then
      let text ← pushedText bytes segment position
      return (result ++ text, position + 1)
    else if byte ≤ 31 then .error .refused
    else if byte = 0x5c then
      let text ← pushedText bytes segment position
      let (character, position) ← escape bytes (position + 1)
      stringFrom fuel position position (result ++ text ++ [character])
    else stringFrom fuel segment (position + 1) result

/-- A string, from its opening quote on. -/
def string (position : ℕ) : Except Stop (List Char × ℕ) := do
  reject (bytes[position]? != some 0x22) .refused
  stringFrom bytes (bytes.length + 1) (position + 1) (position + 1) []

/-! ### Numbers -/

/-- At least one digit from the position on. -/
def digits (position : ℕ) : Except Stop ℕ := do
  let stop := skipWhile bytes isAsciiDigit position
  reject (stop == position) .refused
  return stop

/-- The parts of `atom_number`: a sign, a whole part without leading zeros, a fraction and an
exponent. -/
def sign (position : ℕ) : ℕ := if bytes[position]? = some 0x2d then position + 1 else position

/-- The digits before the point, which start with a zero only if it is all there is. -/
def whole (position : ℕ) : Except Stop ℕ := do
  let first ← orError .refused bytes[position]?
  reject (!isAsciiDigit first) .refused
  return if first = 0x30 then position + 1 else skipWhile bytes isAsciiDigit (position + 1)

/-- The digits behind a point. -/
def fraction (position : ℕ) : Except Stop ℕ :=
  if bytes[position]? = some 0x2e then digits bytes (position + 1) else .ok position

/-- The digits behind an `e`. -/
def exponent (position : ℕ) : Except Stop ℕ :=
  if bytes[position]? = some 0x65 ∨ bytes[position]? = some 0x45 then
    digits bytes (if bytes[position + 1]? = some 0x2b ∨ bytes[position + 1]? = some 0x2d then
      position + 2 else position + 1)
  else .ok position

/-- The position behind a number. -/
def atomNumber (position : ℕ) : Except Stop ℕ := do
  let position ← whole bytes (sign bytes position)
  let position ← fraction bytes position
  exponent bytes position

/-! ### Values -/

/-- One of the literals. -/
def consume (literal : List UInt8) (position : ℕ) : Except Stop (JsonValue × ℕ) := do
  reject (getRange bytes position (position + literal.length) != some literal) .refused
  return (.atom, position + literal.length)

/-- `depth.saturating_add(1)`. -/
def deeper (depth : ℕ) : ℕ := min (depth + 1) 255

mutual

/-- A value at a depth.  `fuel` bounds the calls, and no input uses it up. -/
def value : ℕ → ℕ → ℕ → Except Stop (JsonValue × ℕ)
  | 0, _, _ => .error .exhausted
  | fuel + 1, depth, position => do
    let position := whitespace bytes position
    let byte ← orError .refused bytes[position]?
    if byte = 0x7b then
      reject (!(depth ≤ 16)) .refused
      let position := whitespace bytes (position + 1)
      if bytes[position]? = some 0x7d then return (.object [], position + 1)
      else members fuel depth position []
    else if byte = 0x5b then
      reject (!(depth ≤ 16)) .refused
      let position := whitespace bytes (position + 1)
      if bytes[position]? = some 0x5d then return (.array [], position + 1)
      else values fuel depth position []
    else if byte = 0x22 then
      let (text, position) ← string bytes position
      return (.string text, position)
    else if byte = 0x2d ∨ isAsciiDigit byte then
      let position ← atomNumber bytes position
      return (.atom, position)
    else if byte = 0x74 then consume bytes [0x74, 0x72, 0x75, 0x65] position
    else if byte = 0x66 then consume bytes [0x66, 0x61, 0x6c, 0x73, 0x65] position
    else if byte = 0x6e then consume bytes [0x6e, 0x75, 0x6c, 0x6c] position
    else .error .refused

/-- The loop of `object`. -/
def members : ℕ → ℕ → ℕ → List (List Char × JsonValue) → Except Stop (JsonValue × ℕ)
  | 0, _, _, _ => .error .exhausted
  | fuel + 1, depth, position, read => do
    let (key, position) ← string bytes (whitespace bytes position)
    let position := whitespace bytes position
    reject (bytes[position]? != some 0x3a) .refused
    let (member, position) ← value fuel (deeper depth) (position + 1)
    let position := whitespace bytes position
    if bytes[position]? = some 0x2c then
      members fuel depth (position + 1) (read ++ [(key, member)])
    else if bytes[position]? = some 0x7d then return (.object (read ++ [(key, member)]), position + 1)
    else .error .refused

/-- The loop of `array`. -/
def values : ℕ → ℕ → ℕ → List JsonValue → Except Stop (JsonValue × ℕ)
  | 0, _, _, _ => .error .exhausted
  | fuel + 1, depth, position, read => do
    let (item, position) ← value fuel (deeper depth) position
    let position := whitespace bytes position
    if bytes[position]? = some 0x2c then values fuel depth (position + 1) (read ++ [item])
    else if bytes[position]? = some 0x5d then return (.array (read ++ [item]), position + 1)
    else .error .refused

end

/-- A text of one value, with white space around it. -/
def parse : Except Stop JsonValue := do
  reject (decodeUtf8 bytes).isNone .refused
  let (document, position) ← value bytes (2 * bytes.length + 1) 1 0
  let position := whitespace bytes position
  reject (position != bytes.length) .refused
  return document

/-! ### Positions -/

/-- What stands from the position on. -/
def At (position : ℕ) (rest : List UInt8) : Prop :=
  position ≤ bytes.length ∧ bytes.drop position = rest

variable {bytes} {position : ℕ} {text rest : List UInt8}

theorem At.get (h : At bytes position rest) : bytes[position]? = rest.head? := by
  rw [← h.2, List.head?_drop]

theorem At.next {b : UInt8} (h : At bytes position (b :: rest)) : At bytes (position + 1) rest := by
  obtain ⟨-, hdrop⟩ := h
  have hlt : position < bytes.length := by
    by_contra hge
    rw [List.drop_eq_nil_of_le (by omega)] at hdrop
    cases hdrop
  rw [List.drop_eq_getElem_cons hlt] at hdrop
  exact ⟨hlt, (List.cons.inj hdrop).2⟩

theorem At.append {front : List UInt8} (h : At bytes position (front ++ rest)) :
    At bytes (position + front.length) rest := by
  induction front generalizing position with
  | nil => exact h
  | cons b front ih =>
    rw [List.length_cons, Nat.add_comm front.length, ← Nat.add_assoc]
    exact ih (At.next h)

theorem At.length (h : At bytes position rest) : position + rest.length = bytes.length := by
  obtain ⟨hle, rfl⟩ := h
  rw [List.length_drop]
  omega

/-- A byte at the position. -/
theorem At.cons_of_get {b : UInt8} (h : At bytes position text) (hget : bytes[position]? = some b) :
    ∃ rest, text = b :: rest := by
  rw [h.get] at hget
  cases text with
  | nil => cases hget
  | cons c rest =>
    cases hget
    exact ⟨rest, rfl⟩

theorem At.skipWhile (h : At bytes position text) (p : UInt8 → Bool) :
    At bytes (skipWhile bytes p position) (text.dropWhile p) := by
  rw [JsonParser.skipWhile, h.2]
  apply At.append
  rwa [List.takeWhile_append_dropWhile]

theorem le_skipWhile (p : UInt8 → Bool) : position ≤ skipWhile bytes p position :=
  Nat.le_add_right _ _

theorem run_dropWhile {p : UInt8 → Bool} {q : UInt8 → Prop} (hpq : ∀ b, p b = true → q b)
    (text : List UInt8) : JsonDialect.Run q text (text.dropWhile p) := by
  refine ⟨text.takeWhile p, (List.takeWhile_append_dropWhile).symm, ?_⟩
  intro b hb
  exact hpq b (List.all_eq_true.1 List.all_takeWhile b hb)

/-- Bytes of one kind in front of something else. -/
theorem dropWhile_of_run {p : UInt8 → Bool} {q : UInt8 → Prop} (hqp : ∀ b, q b → p b = true)
    (h : JsonDialect.Run q text rest) (hrest : ∀ b, rest.head? = some b → p b = false) :
    text.dropWhile p = rest := by
  obtain ⟨front, rfl, hfront⟩ := h
  rw [List.dropWhile_append_of_pos fun b hb => hqp b (hfront b hb)]
  cases rest with
  | nil => rfl
  | cons b rest => rw [List.dropWhile_cons_of_neg (by simp [hrest b rfl])]

/-! ### Answers -/

/-- The call returns what satisfies `P`, or refuses. -/
def Answers {α : Type} (P : α → Prop) : Except Stop α → Prop
  | .ok a => P a
  | .error stop => stop = .refused

section Answers

variable {α β : Type} {P : α → Prop} {Q : β → Prop}

theorem Answers.bind {x : Except Stop α} {f : α → Except Stop β} (h : Answers P x)
    (hf : ∀ a, P a → Answers Q (f a)) : Answers Q (x >>= f) := by
  cases x with
  | error stop => exact h
  | ok a => exact hf a h

theorem Answers.mono {Q : α → Prop} {x : Except Stop α} (h : Answers P x) (hPQ : ∀ a, P a → Q a) :
    Answers Q x := by
  cases x with
  | error stop => exact h
  | ok a => exact hPQ a h

theorem answers_reject (bad : Bool) : Answers (fun _ => bad = false) (reject bad Stop.refused) := by
  cases bad <;> rfl

theorem answers_orError (x : Option α) :
    Answers (fun a => x = some a) (orError Stop.refused x) := by
  cases x <;> rfl

end Answers

/-! ### Strings and numbers -/

/-- What the parser takes for JSON. -/
def accepted : JsonDialect.Dialect := ⟨true, true, false⟩

theorem isAsciiDigit_iff {b : UInt8} : isAsciiDigit b = true ↔ JsonDialect.IsDigit b := by
  simp [isAsciiDigit, JsonDialect.IsDigit]

theorem isAsciiWhitespace_iff {b : UInt8} :
    isAsciiWhitespace b = true ↔ JsonDialect.IsWhite accepted b := by
  simp only [isAsciiWhitespace, Bool.or_eq_true, beq_iff_eq, JsonDialect.IsWhite, accepted,
    true_and]
  tauto

/-- A byte that stands for itself or a part of a character. -/
def IsPlain (b : UInt8) : Prop := b ≠ 0x22 ∧ b ≠ 0x5c ∧ 0x20 ≤ b.toNat

/-- The bytes between two positions. -/
def pending (bytes : List UInt8) (segment position : ℕ) : List UInt8 :=
  (bytes.drop segment).take (position - segment)

theorem pushedText_eq {segment : ℕ} (h : segment ≤ position) (hlength : position ≤ bytes.length) :
    pushedText bytes segment position =
      orError .refused (decodeUtf8 (pending bytes segment position)) := by
  simp [pushedText, pending, h, hlength, reject]
  rfl

theorem drop_segment (bytes : List UInt8) {segment : ℕ} (h : segment ≤ position) :
    bytes.drop segment = pending bytes segment position ++ bytes.drop position := by
  have hdrop : bytes.drop position = (bytes.drop segment).drop (position - segment) := by
    rw [List.drop_drop]
    congr 1
    omega
  rw [hdrop, pending, List.take_append_drop]

theorem pending_succ {segment : ℕ} {b : UInt8} (h : segment ≤ position)
    (hat : At bytes position (b :: rest)) :
    pending bytes segment (position + 1) = pending bytes segment position ++ [b] := by
  have hwhole := drop_segment bytes h
  have hwhole' := drop_segment bytes (Nat.le_succ_of_le h)
  rw [hwhole, hat.2, hat.next.2, List.append_cons] at hwhole'
  exact (List.append_cancel_right hwhole').symm

/-- A character with plain bytes is written as itself. -/
theorem unescaped_of_plain {c : Char} (h : ∀ b ∈ String.utf8EncodeChar c, IsPlain b) :
    c ≠ '"' ∧ c ≠ '\\' ∧ 0x20 ≤ c.toNat := by
  by_cases hascii : c.toNat < 128
  · rw [Ascii.utf8EncodeChar_of_ascii hascii] at h
    obtain ⟨hquote, hslash, hplain⟩ := h _ List.mem_cons_self
    refine ⟨?_, ?_, ?_⟩
    · rintro rfl
      exact hquote rfl
    · rintro rfl
      exact hslash rfl
    · rw [UInt8.toNat_ofNat'] at hplain
      omega
  · refine ⟨?_, ?_, by omega⟩
    · rintro rfl
      exact hascii (by decide)
    · rintro rfl
      exact hascii (by decide)

/-- Plain bytes in front of the rest of a string. -/
theorem contents_plain {cs : List Char} {units : List ℕ}
    (h : ∀ b ∈ cs.flatMap String.utf8EncodeChar, IsPlain b)
    (hrest : JsonDialect.Contents accepted text units rest) :
    JsonDialect.Contents accepted (cs.flatMap String.utf8EncodeChar ++ text)
      (cs.flatMap JsonDialect.utf16 ++ units) rest := by
  induction cs with
  | nil => exact hrest
  | cons c cs ih =>
    rw [List.flatMap_cons] at h
    obtain ⟨hquote, hslash, hplain⟩ :=
      unescaped_of_plain fun b hb => h b (List.mem_append_left _ hb)
    have hlater := ih fun b hb => h b (List.mem_append_right _ hb)
    rw [List.flatMap_cons, List.flatMap_cons, List.append_assoc, List.append_assoc]
    exact .piece (.unescaped hquote hslash hplain) hlater

theorem fromHexDigits_eq (a b c d : UInt8) :
    fromHexDigits [a, b, c, d] = JsonDialect.hexCode [a, b, c, d] := by
  simp only [fromHexDigits, JsonDialect.hexCode, List.foldlM_cons, List.foldlM_nil]
  cases ha : JsonDialect.hexDigit a with
  | none => rfl
  | some i =>
    have hi := JsonDialect.hexDigit_lt ha
    cases hb : JsonDialect.hexDigit b with
    | none => simp
    | some j =>
      have hj := JsonDialect.hexDigit_lt hb
      cases hc : JsonDialect.hexDigit c with
      | none => simp
      | some k =>
        have hk := JsonDialect.hexDigit_lt hc
        cases hd : JsonDialect.hexDigit d with
        | none => simp
        | some l =>
          have hl := JsonDialect.hexDigit_lt hd
          have h1 : i < 65536 := by omega
          have h2 : i * 16 + j < 65536 := by omega
          have h3 : (i * 16 + j) * 16 + k < 65536 := by omega
          have h4 : ((i * 16 + j) * 16 + k) * 16 + l < 65536 := by omega
          simp [h1, h2, h3, h4]

/-- Four digits never leave the range of `u16`, and a sign stands for a leading zero. -/
theorem fromStrRadix_eq (a b c d : UInt8) :
    fromStrRadix [a, b, c, d] =
      JsonDialect.hexCode (if a = 0x2b then [0x30, b, c, d] else [a, b, c, d]) := by
  by_cases hplus : a = 0x2b
  · subst hplus
    have hzero : fromHexDigits [0x30, b, c, d] = fromHexDigits [b, c, d] := rfl
    rw [if_pos rfl, ← fromHexDigits_eq, hzero]
    simp [fromStrRadix]
  · rw [if_neg hplus, ← fromHexDigits_eq]
    simp [fromStrRadix, hplus]

/-- The escape of a scalar is that of its code unit. -/
theorem codeUnit_accepted {digits : List UInt8} (hlength : digits.length = 4) {scalar : ℕ} :
    JsonDialect.codeUnit accepted digits = some scalar ↔
      fromStrRadix digits = some scalar ∧ scalar.isValidChar := by
  rcases digits with _ | ⟨a, _ | ⟨b, _ | ⟨c, _ | ⟨d, _ | ⟨e, digits⟩⟩⟩⟩⟩ <;> simp at hlength
  rw [JsonDialect.codeUnit_eq_some, fromStrRadix_eq]
  simp only [accepted, Bool.true_and, List.head?_cons, List.tail_cons, beq_iff_eq,
    Option.some.injEq]
  constructor
  · rintro ⟨hcode, hsurrogate⟩
    refine ⟨hcode, (JsonDialect.isValidChar_of_lt (JsonDialect.hexCode_lt hcode)).2 ?_⟩
    simpa using hsurrogate
  · rintro ⟨hcode, hvalid⟩
    exact ⟨hcode, by simp [(JsonDialect.isValidChar_of_lt (JsonDialect.hexCode_lt hcode)).1 hvalid]⟩

theorem letterEscape_eq (letter : UInt8) :
    JsonDialect.letterUnit letter = (letterEscape letter).map Char.toNat := by
  unfold JsonDialect.letterUnit letterEscape
  split_ifs <;> rfl

theorem utf16_letterEscape {letter : UInt8} {c : Char} (h : letterEscape letter = some c) :
    JsonDialect.utf16 c = [c.toNat] := by
  apply JsonDialect.utf16_of_lt
  unfold letterEscape at h
  split_ifs at h <;> cases h <;> decide

theorem lt_of_fromStrRadix {digits : List UInt8} (hlength : digits.length = 4) {scalar : ℕ}
    (h : fromStrRadix digits = some scalar) : scalar < 0x10000 := by
  rcases digits with _ | ⟨a, _ | ⟨b, _ | ⟨c, _ | ⟨d, _ | ⟨e, digits⟩⟩⟩⟩⟩ <;> simp at hlength
  rw [fromStrRadix_eq] at h
  exact JsonDialect.hexCode_lt h

theorem charFromU32_eq_some {scalar : ℕ} {c : Char} :
    charFromU32 scalar = some c ↔ scalar.isValidChar ∧ Char.ofNat scalar = c := by
  unfold charFromU32
  split <;> simp [*]

/-- The next `n` bytes. -/
theorem getRange_eq_some {n : ℕ} {part : List UInt8} (hat : At bytes position text) :
    getRange bytes position (position + n) = some part ↔
      ∃ rest, text = part ++ rest ∧ part.length = n := by
  have hlength := hat.length
  obtain ⟨hle, hdrop⟩ := hat
  unfold getRange
  rw [Nat.add_sub_cancel_left, hdrop]
  constructor
  · intro h
    split at h
    · cases h
      refine ⟨text.drop n, (List.take_append_drop n text).symm, ?_⟩
      rw [List.length_take]
      omega
    · cases h
  · rintro ⟨rest, rfl, rfl⟩
    rw [List.length_append] at hlength
    rw [if_pos (by omega), List.take_left]

/-- An escape ends behind its code unit. -/
theorem escape_answers (hat : At bytes position text) :
    Answers (fun p => ∃ rest, JsonDialect.Piece accepted (0x5c :: text) (JsonDialect.utf16 p.1) rest ∧
      At bytes p.2 rest ∧ position < p.2) (escape bytes position) := by
  unfold escape
  refine (answers_orError _).bind fun letter hletter => ?_
  obtain ⟨text', rfl⟩ := hat.cons_of_get hletter
  cases hchar : letterEscape letter with
  | some c =>
    refine ⟨text', ?_, hat.next, Nat.lt_succ_self _⟩
    rw [utf16_letterEscape hchar]
    exact .escape (by rw [letterEscape_eq, hchar]; rfl)
  | none =>
    refine (answers_reject _).bind fun _ hu => ?_
    have hu' : letter = 0x75 := by simpa using hu
    subst hu'
    refine (answers_orError _).bind fun hex hhex => ?_
    refine (answers_reject _).bind fun _ _ => ?_
    refine (answers_orError _).bind fun scalar hscalar => ?_
    refine (answers_orError _).bind fun c hc => ?_
    obtain ⟨rest, rfl, hlength⟩ := (getRange_eq_some hat.next (n := 4)).1 hhex
    obtain ⟨hvalid, rfl⟩ := charFromU32_eq_some.1 hc
    have hcode := (codeUnit_accepted hlength).2 ⟨hscalar, hvalid⟩
    have hlt := lt_of_fromStrRadix hlength hscalar
    have hend : At bytes (position + 1 + hex.length) rest := hat.next.append
    rw [hlength] at hend
    refine ⟨rest, ?_, hend, by show position < position + 5; omega⟩
    show JsonDialect.Piece accepted _ (JsonDialect.utf16 (Char.ofNat scalar)) rest
    rw [JsonDialect.utf16_ofNat hvalid hlt]
    exact .code hcode

/-- What the bytes since the last escape decode to. -/
theorem answers_pushedText {segment : ℕ} (h : segment ≤ position)
    (hlength : position ≤ bytes.length) :
    Answers (fun cs => pending bytes segment position = cs.flatMap String.utf8EncodeChar)
      (pushedText bytes segment position) := by
  rw [pushedText_eq h hlength]
  refine (answers_orError _).mono fun cs hcs => ?_
  rw [← decodeUtf8_eq_some.1 hcs, Ascii.utf8Bytes_eq_flatMap, String.toList_ofList]

/-- The loop reads the contents of a string from the last escape on. -/
theorem stringFrom_answers {fuel segment : ℕ} {result : List Char}
    (hfuel : bytes.length - position < fuel) (hsegment : segment ≤ position)
    (hlength : position ≤ bytes.length)
    (hplain : ∀ b ∈ pending bytes segment position, IsPlain b) :
    Answers (fun p => ∃ more rest, p.1 = result ++ more ∧
      JsonDialect.Contents accepted (bytes.drop segment) (more.flatMap JsonDialect.utf16) rest ∧
      At bytes p.2 rest ∧ position < p.2) (stringFrom bytes fuel segment position result) := by
  induction fuel generalizing segment position result with
  | zero => omega
  | succ fuel ih =>
    have hat : At bytes position (bytes.drop position) := ⟨hlength, rfl⟩
    rw [stringFrom]
    refine (answers_orError _).bind fun byte hbyte => ?_
    obtain ⟨text, htext⟩ := hat.cons_of_get hbyte
    rw [htext] at hat
    have hlt := hat.length
    rw [List.length_cons] at hlt
    by_cases hquote : byte = 0x22
    · rw [if_pos hquote]
      refine (answers_pushedText hsegment hlength).bind fun cs hcs => ?_
      refine ⟨cs, text, rfl, ?_, hat.next, Nat.lt_succ_self _⟩
      have hclose : JsonDialect.Contents accepted (0x22 :: text) [] text := .close
      rw [drop_segment bytes hsegment, hcs, htext, hquote]
      simpa only [List.append_nil] using contents_plain (hcs ▸ hplain) hclose
    · rw [if_neg hquote]
      by_cases hcontrol : byte ≤ 31
      · rw [if_pos hcontrol]
        rfl
      · rw [if_neg hcontrol]
        by_cases hslash : byte = 0x5c
        · rw [if_pos hslash]
          refine (answers_pushedText hsegment hlength).bind fun cs hcs => ?_
          refine (escape_answers hat.next).bind fun p hp => ?_
          obtain ⟨rest, hpiece, hnext, hlater⟩ := hp
          have hnextLength := hnext.1
          -- The segment starts anew behind the escape.
          refine (ih (by omega) (Nat.le_refl _) hnext.1 (by simp [pending])).mono fun q hq => ?_
          obtain ⟨more, rest', hresult, hcontents, hend, hforth⟩ := hq
          refine ⟨cs ++ p.1 :: more, rest', by simp [hresult], ?_, hend, by omega⟩
          rw [hnext.2] at hcontents
          rw [drop_segment bytes hsegment, hcs, htext, hslash, List.flatMap_append,
            List.flatMap_cons]
          exact contents_plain (hcs ▸ hplain) (.piece hpiece hcontents)
        · rw [if_neg hslash]
          have hpending := pending_succ hsegment hat
          refine (ih (by omega) (Nat.le_succ_of_le hsegment) hat.next.1 ?_).mono fun q hq => ?_
          · rw [hpending]
            intro b hb
            rcases List.mem_append.1 hb with hb | hb
            · exact hplain b hb
            · rw [List.mem_singleton.1 hb]
              refine ⟨hquote, hslash, ?_⟩
              rw [UInt8.le_iff_toNat_le] at hcontrol
              simp at hcontrol
              omega
          · obtain ⟨more, rest, hresult, hcontents, hend, hforth⟩ := hq
            exact ⟨more, rest, hresult, hcontents, hend, by omega⟩

theorem string_answers (hat : At bytes position text) :
    Answers (fun p => ∃ contents rest, text = 0x22 :: contents ∧
      JsonDialect.Contents accepted contents (p.1.flatMap JsonDialect.utf16) rest ∧
      At bytes p.2 rest ∧ position < p.2) (string bytes position) := by
  unfold string
  refine (answers_reject _).bind fun _ hquote => ?_
  obtain ⟨contents, rfl⟩ := hat.cons_of_get (b := 0x22) (by simpa using hquote)
  have hnext := hat.next
  refine (stringFrom_answers (by omega) (Nat.le_refl _) hnext.1 (by simp [pending])).mono
    fun p hp => ?_
  obtain ⟨more, rest, hresult, hcontents, hend, hforth⟩ := hp
  rw [hnext.2] at hcontents
  rw [List.nil_append] at hresult
  exact ⟨contents, rest, rfl, hresult ▸ hcontents, hend, by omega⟩

/-! ### Numbers -/

theorem isDigit_run (text : List UInt8) :
    JsonDialect.Run JsonDialect.IsDigit text (text.dropWhile isAsciiDigit) :=
  run_dropWhile (fun _ h => isAsciiDigit_iff.1 h) text

theorem digits_answers (hat : At bytes position text) :
    Answers (fun next => ∃ rest, JsonDialect.Digits text rest ∧ At bytes next rest ∧
      position < next) (digits bytes position) := by
  unfold digits
  refine (answers_reject _).bind fun _ hmoved => ?_
  have hmoved' : skipWhile bytes isAsciiDigit position ≠ position := by simpa using hmoved
  have hnext := hat.skipWhile isAsciiDigit
  cases text with
  | nil =>
    rw [skipWhile, hat.2] at hmoved'
    exact absurd rfl hmoved'
  | cons b text =>
    by_cases hb : isAsciiDigit b = true
    · rw [List.dropWhile_cons_of_pos hb] at hnext
      have hle : position ≤ skipWhile bytes isAsciiDigit position := le_skipWhile isAsciiDigit
      exact ⟨_, ⟨b, text, rfl, isAsciiDigit_iff.1 hb, isDigit_run text⟩, hnext, by omega⟩
    · rw [skipWhile, hat.2, List.takeWhile_cons_of_neg hb] at hmoved'
      exact absurd rfl hmoved'

theorem at_sign (hat : At bytes position text) :
    ∃ whole, (text = whole ∨ text = 0x2d :: whole) ∧ At bytes (sign bytes position) whole ∧
      position ≤ sign bytes position := by
  unfold sign
  by_cases hminus : bytes[position]? = some 0x2d
  · obtain ⟨whole, rfl⟩ := hat.cons_of_get hminus
    rw [if_pos hminus]
    exact ⟨whole, Or.inr rfl, hat.next, Nat.le_succ _⟩
  · rw [if_neg hminus]
    exact ⟨text, Or.inl rfl, hat, Nat.le_refl _⟩

theorem whole_answers (hat : At bytes position text) :
    Answers (fun next => ∃ frac, (text = 0x30 :: frac ∨ ∃ b more, text = b :: more ∧
      (0x31 ≤ b ∧ b ≤ 0x39) ∧ JsonDialect.Run JsonDialect.IsDigit more frac) ∧
      At bytes next frac ∧ position < next) (whole bytes position) := by
  unfold whole
  refine (answers_orError _).bind fun first hfirst => ?_
  refine (answers_reject _).bind fun _ hdigit => ?_
  obtain ⟨more, rfl⟩ := hat.cons_of_get hfirst
  by_cases hzero : first = 0x30
  · rw [if_pos hzero]
    exact ⟨more, Or.inl (by rw [hzero]), hat.next, Nat.lt_succ_self _⟩
  · have hone : 0x31 ≤ first ∧ first ≤ 0x39 := by
      have hrange := isAsciiDigit_iff.1 (by simpa using hdigit)
      refine ⟨?_, hrange.2⟩
      have hge := UInt8.le_iff_toNat_le.1 hrange.1
      have hne : first.toNat ≠ 0x30 := fun heq => hzero (UInt8.toNat_inj.1 heq)
      rw [UInt8.le_iff_toNat_le]
      simp at hge ⊢
      omega
    rw [if_neg hzero]
    exact ⟨_, Or.inr ⟨first, more, rfl, hone, isDigit_run more⟩, hat.next.skipWhile isAsciiDigit,
      le_skipWhile isAsciiDigit⟩

theorem fraction_answers (hat : At bytes position text) :
    Answers (fun next => ∃ exp, (text = exp ∨ ∃ digits, text = 0x2e :: digits ∧
      JsonDialect.Digits digits exp) ∧ At bytes next exp ∧ position ≤ next)
      (fraction bytes position) := by
  unfold fraction
  by_cases hpoint : bytes[position]? = some 0x2e
  · obtain ⟨digits, rfl⟩ := hat.cons_of_get hpoint
    rw [if_pos hpoint]
    refine (digits_answers hat.next).mono fun next hnext => ?_
    obtain ⟨exp, hdigits, hexp, hlt⟩ := hnext
    exact ⟨exp, Or.inr ⟨digits, rfl, hdigits⟩, hexp, by omega⟩
  · rw [if_neg hpoint]
    exact ⟨text, Or.inl rfl, hat, Nat.le_refl _⟩

theorem exponent_answers (hat : At bytes position text) :
    Answers (fun next => ∃ rest, (text = rest ∨ ∃ e signed digits, text = e :: signed ∧
      (e = 0x65 ∨ e = 0x45) ∧
      (signed = digits ∨ signed = 0x2b :: digits ∨ signed = 0x2d :: digits) ∧
      JsonDialect.Digits digits rest) ∧ At bytes next rest ∧ position ≤ next)
      (exponent bytes position) := by
  unfold exponent
  by_cases he : bytes[position]? = some 0x65 ∨ bytes[position]? = some 0x45
  · rw [if_pos he]
    obtain ⟨e, signed, rfl, hletter⟩ : ∃ e signed, text = e :: signed ∧ (e = 0x65 ∨ e = 0x45) := by
      rcases he with he | he <;> obtain ⟨signed, rfl⟩ := hat.cons_of_get he
      · exact ⟨_, signed, rfl, Or.inl rfl⟩
      · exact ⟨_, signed, rfl, Or.inr rfl⟩
    obtain ⟨digits, hsign, hdigits, hle⟩ : ∃ digits, (signed = digits ∨ signed = 0x2b :: digits ∨
        signed = 0x2d :: digits) ∧ At bytes (if bytes[position + 1]? = some 0x2b ∨
          bytes[position + 1]? = some 0x2d then position + 2 else position + 1) digits ∧
        position ≤ if bytes[position + 1]? = some 0x2b ∨ bytes[position + 1]? = some 0x2d then
          position + 2 else position + 1 := by
      by_cases hsigned : bytes[position + 1]? = some 0x2b ∨ bytes[position + 1]? = some 0x2d
      · rw [if_pos hsigned]
        rcases hsigned with hsigned | hsigned <;>
          obtain ⟨digits, rfl⟩ := hat.next.cons_of_get hsigned
        · exact ⟨digits, Or.inr (Or.inl rfl), hat.next.next, by omega⟩
        · exact ⟨digits, Or.inr (Or.inr rfl), hat.next.next, by omega⟩
      · rw [if_neg hsigned]
        exact ⟨signed, Or.inl rfl, hat.next, by omega⟩
    refine (digits_answers hdigits).mono fun next hnext => ?_
    obtain ⟨rest, hread, hrest, hlt⟩ := hnext
    exact ⟨rest, Or.inr ⟨e, signed, digits, rfl, hletter, hsign, hread⟩, hrest, by omega⟩
  · rw [if_neg he]
    exact ⟨text, Or.inl rfl, hat, Nat.le_refl _⟩

theorem atomNumber_answers (hat : At bytes position text) :
    Answers (fun next => ∃ rest, JsonDialect.Number text rest ∧ At bytes next rest ∧
      position < next) (atomNumber bytes position) := by
  obtain ⟨whole, hsign, hwhole, hle⟩ := at_sign hat
  unfold atomNumber
  refine (whole_answers hwhole).bind fun dot hdot => ?_
  obtain ⟨frac, hint, hfrac, hlt⟩ := hdot
  refine (fraction_answers hfrac).bind fun mark hmark => ?_
  obtain ⟨exp, hfraction, hexp, hle'⟩ := hmark
  refine (exponent_answers hexp).mono fun next hnext => ?_
  obtain ⟨rest, hexponent, hrest, hle''⟩ := hnext
  exact ⟨rest, .mk hsign hint hfraction hexponent, hrest, by omega⟩

end JsonParser

end MsgRiver.PhaseZero
