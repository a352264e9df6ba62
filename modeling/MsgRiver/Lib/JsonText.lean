import MsgRiver.Lib.Json
import MsgRiver.Lib.Text

/-!
# Reading flat JSON objects

A reader for RFC 8259 texts of one kind: objects without white space between their tokens, whose
members are texts or `null`.  In a text every escape is read but the surrogate pairs.  A member is
entered in key order, and a later one replaces an earlier one with its key.

`read` answers nothing on any other text, so `Agrees` asks little of a JSON reader: that it gives
the same value where this one gives one.
-/

namespace JsonText

open Json Text

/-- The character of a two-character escape. -/
def unescape : Char → Option Char
  | '"' => some '"'
  | '\\' => some '\\'
  | '/' => some '/'
  | 'b' => some '\x08'
  | 'f' => some '\x0c'
  | 'n' => some '\n'
  | 'r' => some '\r'
  | 't' => some '\t'
  | _ => none

/-- The character of a `\uXXXX` escape, when it is one of its own. -/
def unicodeEscape (a b c d : Char) : Option Char := do
  let code := (((← hexValue a) * 16 + (← hexValue b)) * 16 + (← hexValue c)) * 16 + (← hexValue d)
  if 0xd800 ≤ code ∧ code ≤ 0xdfff then none else some (Char.ofNat code)

/-- A text after its opening quote, and what follows its closing quote. -/
def readString : List Char → Option (List Char × List Char)
  | [] => none
  | '"' :: rest => some ([], rest)
  | '\\' :: 'u' :: a :: b :: c :: d :: rest => do
    let char ← unicodeEscape a b c d
    let (text, rest) ← readString rest
    return (char :: text, rest)
  | '\\' :: escape :: rest => do
    let char ← unescape escape
    let (text, rest) ← readString rest
    return (char :: text, rest)
  | char :: rest =>
    if char.toNat < 0x20 ∨ char = '\\' then none
    else do
      let (text, rest) ← readString rest
      return (char :: text, rest)

/-- The value of a member. -/
def readValue : List Char → Option (Value × List Char)
  | '"' :: rest => (readString rest).map fun p => (.string (String.ofList p.1), p.2)
  | 'n' :: 'u' :: 'l' :: 'l' :: rest => some (.null, rest)
  | _ => none

/-- A key, a colon and a value. -/
def readMember : List Char → Option ((String × Value) × List Char)
  | '"' :: rest => do
    let (key, rest) ← readString rest
    match rest with
    | ':' :: rest =>
      let (value, rest) ← readValue rest
      return ((String.ofList key, value), rest)
    | _ => none
  | _ => none

/-- Enter a member in key order. -/
def insertMember (key : String) (value : Value) : List (String × Value) → List (String × Value)
  | [] => [(key, value)]
  | (k, v) :: members =>
    if key < k then (key, value) :: (k, v) :: members
    else if key = k then (key, value) :: members
    else (k, v) :: insertMember key value members

/-- At most `n` members and the closing brace. -/
def readMembers : ℕ → List (String × Value) → List Char →
    Option (List (String × Value) × List Char)
  | 0, _, _ => none
  | n + 1, members, text => do
    let ((key, value), rest) ← readMember text
    match rest with
    | ',' :: rest => readMembers n (insertMember key value members) rest
    | '}' :: rest => some (insertMember key value members, rest)
    | _ => none

/-- One object and nothing else. -/
def readObject (text : List Char) : Option Value :=
  match text with
  | '{' :: rest =>
    match readMembers rest.length [] rest with
    | some (members, []) => some (.object members)
    | _ => none
  | _ => none

/-- The value of a UTF-8 text. -/
def read (bytes : List UInt8) : Option Value := (decodeUtf8 bytes).bind readObject

/-- A JSON reader that gives the value that `read` gives. -/
def Agrees (json : Codec) : Prop :=
  ∀ bytes value, read bytes = some value → json.fromSlice bytes = some value

/-! ### Texts -/

/-- `written` stands for the character in a text. -/
def Spells (written : List Char) (char : Char) : Prop :=
  ∀ rest, readString (written ++ rest) =
    (readString rest).map fun p => (char :: p.1, p.2)

/-- A text is read back from characters that spell it. -/
theorem readString_spelled {spell : Char → List Char} {text : List Char}
    (h : ∀ c ∈ text, Spells (spell c) c) (rest : List Char) :
    readString (text.flatMap spell ++ '"' :: rest) = some (text, rest) := by
  induction text with
  | nil => simp [readString]
  | cons c text ih =>
    rw [List.flatMap_cons, List.append_assoc, h c List.mem_cons_self,
      ih fun d hd => h d (List.mem_cons_of_mem c hd)]
    rfl

theorem spells_escape {escape char : Char} (hu : escape ≠ 'u')
    (h : unescape escape = some char) : Spells ['\\', escape] char := by
  intro rest
  simp only [List.cons_append, List.nil_append]
  rw [readString.eq_4 escape rest (fun _ _ _ _ _ he => absurd he hu), h]
  cases readString rest <;> rfl

theorem spells_unicode {a b c d char : Char} (h : unicodeEscape a b c d = some char) :
    Spells ['\\', 'u', a, b, c, d] char := by
  intro rest
  simp only [List.cons_append, List.nil_append]
  rw [readString, h]
  cases readString rest <;> rfl

theorem spells_self {char : Char} (hquote : char ≠ '"') (hslash : char ≠ '\\')
    (h : 0x20 ≤ char.toNat) : Spells [char] char := by
  intro rest
  have hplain : ¬ (char.toNat < 0x20 ∨ char = '\\') := by
    rintro (hlow | hchar)
    · omega
    · exact hslash hchar
  simp only [List.cons_append, List.nil_append]
  rw [readString.eq_5 char rest hquote (fun _ _ _ _ _ hchar => absurd hchar hslash)
    (fun _ _ hchar => absurd hchar hslash), if_neg hplain]
  cases readString rest <;> rfl

/-! ### Members -/

theorem readValue_text {spell : Char → List Char} {text : List Char}
    (h : ∀ c ∈ text, Spells (spell c) c) (rest : List Char) :
    readValue ('"' :: (text.flatMap spell ++ '"' :: rest)) =
      some (.string (String.ofList text), rest) := by
  rw [readValue, readString_spelled h]
  rfl

theorem readValue_null (rest : List Char) :
    readValue ('n' :: 'u' :: 'l' :: 'l' :: rest) = some (.null, rest) := rfl

/-- A member whose key needs no escape. -/
theorem readMember_plain {key written rest : List Char} {value : Value}
    (hkey : ∀ c ∈ key, Spells [c] c) (hvalue : readValue written = some (value, rest)) :
    readMember ('"' :: (key ++ '"' :: ':' :: written)) =
      some ((String.ofList key, value), rest) := by
  have hread := readString_spelled hkey (':' :: written)
  rw [List.flatMap_singleton'] at hread
  rw [readMember, hread]
  simp [hvalue]

end JsonText
