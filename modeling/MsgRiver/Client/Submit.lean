import MsgRiver.Lib.JsonText
import MsgRiver.Lib.Result
import MsgRiver.Service.Local

/-!
# Submitting an ntfy message

`submit` checks a request with `validate_request`, writes it as JSON with a hand-written escape, and
sends it to the local interface of the service.

`submit_agrees_iff`: the service reads every such request back and admits it, in every chunking,
exactly when its title has no line break and its JSON fits the 16 KiB frame.  The client checks
neither (`submit_title_with_lineBreak`).
-/

namespace MsgRiver.Client

open MsgRiver.Store MsgRiver.Service MsgRiver.Connector Result Ascii Text JsonText

/-- A local caller's message request. -/
structure SubmitRequest where
  idempotencyKey : String
  body : String
  title : Option String
  deriving DecidableEq

/-- Why the client library fails, as its caller sees it. -/
inductive ClientError
  | invalidRequest
  | connect
  | transport
  | rejected
  | response
  deriving DecidableEq

/-- The checks of the client library, all made before it connects. -/
def validateRequest (request : SubmitRequest) : Except ClientError Unit :=
  reject (request.idempotencyKey.isEmpty
    || 128 < request.idempotencyKey.utf8ByteSize
    || !(utf8Bytes request.idempotencyKey).all (fun byte =>
        isAlphanumeric byte || byte == 0x2d || byte == 0x5f || byte == 0x2e)
    || request.body.isEmpty
    || 4096 < request.body.utf8ByteSize
    || request.body.toList.contains '\x00'
    || request.title.any (fun title => title.isEmpty || 256 < title.utf8ByteSize
        || title.toList.contains '\x00')) .invalidRequest

/-- The Unicode category `Cc`. -/
def isControl (c : Char) : Bool := c.toNat ≤ 0x1f || (0x7f ≤ c.toNat && c.toNat ≤ 0x9f)

/-- One character of `json_escape`. -/
def escapeChar (c : Char) : List Char :=
  if c = '"' then ['\\', '"']
  else if c = '\\' then ['\\', '\\']
  else if c = '\n' then ['\\', 'n']
  else if c = '\r' then ['\\', 'r']
  else if c = '\t' then ['\\', 't']
  else if isControl c then
    '\\' :: 'u' :: [12, 8, 4, 0].map fun shift => lowerHexDigit ((c.toNat >>> shift) &&& 0xf)
  else [c]

/-- The hand-written escaping of the client library, character by character. -/
def jsonEscape (value : String) : String := String.ofList (value.toList.flatMap escapeChar)

/-- The JSON text of a request; a request without a title has `null` there. -/
def jsonBody (request : SubmitRequest) : String :=
  let title := match request.title with
    | none => "null"
    | some value => "\"" ++ jsonEscape value ++ "\""
  "\x7b\"idempotency_key\":\"" ++ jsonEscape request.idempotencyKey ++ "\",\"body\":\"" ++
    jsonEscape request.body ++ "\",\"title\":" ++ title ++ "\x7d"

/-- The head that `submit` writes, with the length of the body. -/
def submitHead (length : ℕ) : String :=
  "POST /v1/messages HTTP/1.1\r\nHost: local\r\nContent-Type: application/json\r\nContent-Length: " ++
    toString length ++ "\r\nConnection: close\r\n\r\n"

/-- The bytes that `submit` writes for a request. -/
def submitBytes (request : SubmitRequest) : List UInt8 :=
  utf8Bytes (submitHead (jsonBody request).utf8ByteSize) ++ utf8Bytes (jsonBody request)

/-! ### The JSON is read back -/

/-- The four digits of an escape give the character back. -/
theorem unicodeEscape_control {c : Char} (h : c.toNat ≤ 0x9f) :
    unicodeEscape (lowerHexDigit ((c.toNat >>> 12) &&& 0xf))
      (lowerHexDigit ((c.toNat >>> 8) &&& 0xf)) (lowerHexDigit ((c.toNat >>> 4) &&& 0xf))
      (lowerHexDigit ((c.toNat >>> 0) &&& 0xf)) = some c := by
  have hdigit : ∀ shift, hexValue (lowerHexDigit ((c.toNat >>> shift) &&& 0xf)) =
      some (c.toNat / 2 ^ shift % 16) := by
    intro shift
    rw [show (0xf : ℕ) = 2 ^ 4 - 1 from rfl, Nat.and_two_pow_sub_one_eq_mod,
      Nat.shiftRight_eq_div_pow]
    exact hexValue_lowerHexDigit (Nat.mod_lt _ (by decide))
  have hcode : ((c.toNat / 2 ^ 12 % 16 * 16 + c.toNat / 2 ^ 8 % 16) * 16 + c.toNat / 2 ^ 4 % 16) *
      16 + c.toNat / 2 ^ 0 % 16 = c.toNat := by
    omega
  have hplain : ¬ (0xd800 ≤ c.toNat ∧ c.toNat ≤ 0xdfff) := by omega
  simp only [unicodeEscape, hdigit, Option.bind_eq_bind, Option.bind_some, hcode, if_neg hplain,
    Char.ofNat_toNat]

/-- Every character is spelled by its escape. -/
theorem spells_escapeChar (c : Char) : Spells (escapeChar c) c := by
  unfold escapeChar
  split_ifs with hquote hslash hn hr ht hcontrol
  · rw [hquote]
    exact spells_escape (by decide) rfl
  · rw [hslash]
    exact spells_escape (by decide) rfl
  · rw [hn]
    exact spells_escape (by decide) rfl
  · rw [hr]
    exact spells_escape (by decide) rfl
  · rw [ht]
    exact spells_escape (by decide) rfl
  · refine spells_unicode (unicodeEscape_control ?_)
    simp only [isControl, Bool.or_eq_true, Bool.and_eq_true, decide_eq_true_eq] at hcontrol
    omega
  · refine spells_self hquote hslash ?_
    simp only [isControl, Bool.or_eq_true, Bool.and_eq_true, decide_eq_true_eq] at hcontrol
    omega

/-- The value of a title. -/
def titleValue : Option String → Json.Value
  | none => .null
  | some title => .string title

/-- The object that a request stands for, its members in key order. -/
def requestObject (request : SubmitRequest) : List (String × Json.Value) :=
  [("body", .string request.body), ("idempotency_key", .string request.idempotencyKey),
   ("title", titleValue request.title)]

/-- The text of a title. -/
def titleText : Option String → List Char
  | none => "null".toList
  | some title => '"' :: (title.toList.flatMap escapeChar ++ ['"'])

theorem toList_jsonEscape (value : String) :
    (jsonEscape value).toList = value.toList.flatMap escapeChar := String.toList_ofList

theorem toList_titleText (title : Option String) :
    (match title with
      | none => "null"
      | some value => "\"" ++ jsonEscape value ++ "\"").toList = titleText title := by
  have hquote : "\"".toList = ['"'] := by simp
  cases title with
  | none => rfl
  | some value =>
    rw [String.toList_append, String.toList_append, hquote, toList_jsonEscape]
    rfl

/-- The JSON behind its opening brace: three members and the closing brace. -/
def membersText (request : SubmitRequest) : List Char :=
  '"' :: ("idempotency_key".toList ++ '"' :: ':' ::
    ('"' :: (request.idempotencyKey.toList.flatMap escapeChar ++ '"' ::
    (',' :: '"' :: ("body".toList ++ '"' :: ':' ::
    ('"' :: (request.body.toList.flatMap escapeChar ++ '"' ::
    (',' :: '"' :: ("title".toList ++ '"' :: ':' :: (titleText request.title ++ ['}']))))))))))

theorem toList_jsonBody (request : SubmitRequest) :
    (jsonBody request).toList = '{' :: membersText request := by
  have hkey : "\x7b\"idempotency_key\":\"".toList =
      '{' :: '"' :: ("idempotency_key".toList ++ ['"', ':', '"']) := by simp
  have hbody : "\",\"body\":\"".toList =
      '"' :: ',' :: '"' :: ("body".toList ++ ['"', ':', '"']) := by simp
  have htitle : "\",\"title\":".toList =
      '"' :: ',' :: '"' :: ("title".toList ++ ['"', ':']) := by simp
  have hclose : "\x7d".toList = ['}'] := by simp
  unfold jsonBody
  rw [String.toList_append, String.toList_append, String.toList_append, String.toList_append,
    String.toList_append, String.toList_append, hkey, hbody, htitle, hclose, toList_titleText,
    toList_jsonEscape, toList_jsonEscape]
  simp only [membersText, List.append_assoc, List.cons_append, List.nil_append,
    -String.reduceToList]

theorem readValue_title (title : Option String) (rest : List Char) :
    readValue (titleText title ++ rest) = some (titleValue title, rest) := by
  cases title with
  | none => exact readValue_null rest
  | some title =>
    have hread := @readValue_text escapeChar title.toList (fun c _ => spells_escapeChar c) rest
    simpa [titleText, titleValue] using hread

/-- A key without quotes, escapes and control characters spells itself. -/
theorem spells_plain {key : List Char}
    (h : key.all (fun c => c != '"' && c != '\\' && decide (0x20 ≤ c.toNat)) = true) :
    ∀ c ∈ key, Spells [c] c := by
  intro c hc
  have hplain := List.all_eq_true.1 h c hc
  simp only [Bool.and_eq_true, bne_iff_ne, decide_eq_true_eq] at hplain
  exact spells_self hplain.1.1 hplain.1.2 hplain.2

/-- The three members enter the object in key order. -/
theorem insertMember_request (key body title : Json.Value) :
    insertMember "title" title (insertMember "body" body (insertMember "idempotency_key" key [])) =
      [("body", body), ("idempotency_key", key), ("title", title)] := by
  have hbody : "body" < "idempotency_key" := by decide
  have htitle : ¬ "title" < "body" ∧ ¬ "title" < "idempotency_key" := by decide
  have hne : "title" ≠ "body" ∧ "title" ≠ "idempotency_key" := by decide
  simp only [insertMember, if_pos hbody, if_neg htitle.1, if_neg htitle.2, if_neg hne.1,
    if_neg hne.2]

/-- **The JSON of a request is read back.** -/
theorem read_jsonBody (request : SubmitRequest) :
    JsonText.read (utf8Bytes (jsonBody request)) = some (.object (requestObject request)) := by
  have hkey := fun rest => readMember_plain
    (@spells_plain "idempotency_key".toList (by decide +kernel))
    (@readValue_text escapeChar request.idempotencyKey.toList (fun c _ => spells_escapeChar c) rest)
  have hbody := fun rest => readMember_plain (@spells_plain "body".toList (by decide +kernel))
    (@readValue_text escapeChar request.body.toList (fun c _ => spells_escapeChar c) rest)
  have htitle := readMember_plain (@spells_plain "title".toList (by decide +kernel))
    (readValue_title request.title ['}'])
  rw [JsonText.read, decodeUtf8_utf8Bytes, Option.bind_some, toList_jsonBody]
  have hmembers : ∀ n, readMembers (n + 3) [] (membersText request) =
      some (requestObject request, []) := by
    intro n
    rw [membersText, readMembers, hkey]
    simp only [Option.bind_eq_bind, Option.bind_some, -String.reduceToList]
    rw [readMembers, hbody]
    simp only [Option.bind_eq_bind, Option.bind_some, -String.reduceToList]
    rw [readMembers, htitle]
    simp only [Option.bind_eq_bind, Option.bind_some, String.ofList_toList, -String.reduceToList]
    rw [insertMember_request]
    rfl
  obtain ⟨n, hn⟩ : ∃ n, (membersText request).length = n + 3 := by
    refine ⟨(membersText request).length - 3, ?_⟩
    simp only [membersText, List.length_cons, List.length_append, -String.reduceToList]
    omega
  simp only [readObject, hn, hmembers]

/-! ### The head is read back -/

/-- The head up to the length, and behind it up to the blank line. -/
def headStart : String :=
  "POST /v1/messages HTTP/1.1\r\nHost: local\r\nContent-Type: application/json\r\nContent-Length: "

/-- The last header line of the client's request, with the line break before it. -/
def headEnd : String := "\r\nConnection: close"

theorem submitBytes_eq (request : SubmitRequest) :
    submitBytes request = utf8Bytes (headStart ++
      (toString (jsonBody request).utf8ByteSize ++ headEnd)) ++
      (blankLine ++ utf8Bytes (jsonBody request)) := by
  have hblank : utf8Bytes "\r\nConnection: close\r\n\r\n" = utf8Bytes headEnd ++ blankLine := by
    decide +kernel
  unfold submitBytes submitHead
  rw [utf8Bytes_append, utf8Bytes_append, hblank, utf8Bytes_append, utf8Bytes_append]
  simp only [headStart, List.append_assoc]

/-- The digits of a length hold no line break. -/
theorem notMem_utf8Bytes_toString (n : ℕ) : (0x0d : UInt8) ∉ utf8Bytes (toString n) := by
  rw [utf8Bytes_eq_flatMap, Nat.toString_eq_ofList_toDigits, String.toList_ofList, List.mem_flatMap]
  rintro ⟨c, hc, hmem⟩
  have hdigit := isDigit_toDigits hc
  have hrange : 48 ≤ c.toNat ∧ c.toNat ≤ 57 := by
    simpa [Char.isDigit, UInt32.le_iff_toNat_le] using hdigit
  rw [utf8EncodeChar_of_ascii (by omega), List.mem_singleton] at hmem
  have hvalue := congrArg UInt8.toNat hmem
  rw [UInt8.toNat_ofNat', show (0x0d : UInt8).toNat = 13 from rfl] at hvalue
  omega

/-- The blank line that ends the head is the first one. -/
theorem position_submitBytes (request : SubmitRequest) :
    position blankLine (submitBytes request) =
      some (utf8Bytes (headStart ++
        (toString (jsonBody request).utf8ByteSize ++ headEnd))).length := by
  have hstart : Clears blankLine (utf8Bytes headStart) := by
    unfold Clears
    decide +kernel
  have hend : Clears blankLine (utf8Bytes headEnd) := by
    unfold Clears
    decide +kernel
  have hdigits : Clears blankLine (utf8Bytes (toString (jsonBody request).utf8ByteSize)) :=
    clears_of_notMem (notMem_utf8Bytes_toString _)
  have hblank : position blankLine (blankLine ++ utf8Bytes (jsonBody request)) = some 0 := by
    exact position_eq_some_iff.2 ⟨by omega, List.prefix_append _ _, by omega⟩
  rw [submitBytes_eq, utf8Bytes_append, utf8Bytes_append, List.append_assoc, List.append_assoc,
    position_append_left hstart, position_append_left hdigits, position_append_left hend, hblank]
  simp only [Option.map_some, List.length_append]
  congr 1
  omega

/-- Five lines, joined by line breaks. -/
theorem splitCrLf_five {a b c d e : List Char} (ha : '\r' ∉ a) (hb : '\r' ∉ b) (hc : '\r' ∉ c)
    (hd : '\r' ∉ d) (he : '\r' ∉ e) :
    splitCrLf (a ++ '\r' :: '\n' :: (b ++ '\r' :: '\n' :: (c ++ '\r' :: '\n' ::
      (d ++ '\r' :: '\n' :: e)))) = [a, b, c, d, e] := by
  rw [splitCrLf_line ha, splitCrLf_line hb, splitCrLf_line hc, splitCrLf_line hd,
    splitCrLf_of_notMem he]

/-- The lines of the head. -/
theorem splitCrLf_head (n : ℕ) :
    splitCrLf (headStart ++ (toString n ++ headEnd)).toList =
      ["POST /v1/messages HTTP/1.1".toList, "Host: local".toList,
       "Content-Type: application/json".toList,
       "Content-Length".toList ++ ':' :: ' ' :: Nat.toDigits 10 n, "Connection: close".toList] := by
  have hstart : headStart.toList = "POST /v1/messages HTTP/1.1".toList ++ '\r' :: '\n' ::
      ("Host: local".toList ++ '\r' :: '\n' ::
      ("Content-Type: application/json".toList ++ '\r' :: '\n' ::
      ("Content-Length".toList ++ [':', ' ']))) := by simp [headStart]
  have hend : headEnd.toList = '\r' :: '\n' :: "Connection: close".toList := by simp [headEnd]
  have hlines : '\r' ∉ "POST /v1/messages HTTP/1.1".toList ∧ '\r' ∉ "Host: local".toList ∧
      '\r' ∉ "Content-Type: application/json".toList ∧ '\r' ∉ "Content-Length".toList ∧
      '\r' ∉ "Connection: close".toList := by
    simp
  rw [String.toList_append, String.toList_append, hstart, hend, Nat.toString_eq_ofList_toDigits,
    @String.toList_ofList (Nat.toDigits 10 n)]
  -- the texts of the lines do not matter from here on
  generalize "POST /v1/messages HTTP/1.1".toList = requestLine at hlines ⊢
  generalize "Host: local".toList = host at hlines ⊢
  generalize "Content-Type: application/json".toList = type at hlines ⊢
  generalize "Content-Length".toList = name at hlines ⊢
  generalize "Connection: close".toList = close at hlines ⊢
  obtain ⟨hrequestLine, hhost, htype, hname, hclose⟩ := hlines
  have hlength : '\r' ∉ name ++ ':' :: ' ' :: Nat.toDigits 10 n := by
    have hdigits : '\r' ∉ Nat.toDigits 10 n := fun hmem =>
      absurd (isDigit_toDigits hmem) (by decide)
    simp [hname, hdigits]
  have hfive := splitCrLf_five hrequestLine hhost htype hlength hclose
  simpa only [List.append_assoc, List.cons_append, List.nil_append] using hfive

/-- The head is that of an ntfy submission with the announced length. -/
theorem contentLength_head (n : ℕ) :
    contentLength (headStart ++ (toString n ++ headEnd)).toList =
      if n ≤ 2 ^ 64 - 1 then some (.ntfy, n) else none := by
  have hroute : routeOf "POST /v1/messages HTTP/1.1".toList = some .ntfy := if_pos rfl
  have hlength : lengthFrom none
      ["Host: local".toList, "Content-Type: application/json".toList,
       "Content-Length".toList ++ ':' :: ' ' :: Nat.toDigits 10 n, "Connection: close".toList] =
      parseUnsigned (2 ^ 64 - 1) (trim (' ' :: Nat.toDigits 10 n)) := by
    rw [lengthFrom_other (by decide +kernel), lengthFrom_other (by decide +kernel),
      lengthFrom_first (splitOnce_append (by decide +kernel) _) (by decide +kernel),
      lengthFrom_other (by decide +kernel), lengthFrom]
  unfold contentLength requestLineOf
  rw [splitCrLf_head, List.headD_cons, hroute, List.drop_succ_cons, List.drop_zero, hlength,
    trim_toDigits, parseUnsigned_toDigits]
  split_ifs <;> rfl

/-! ### The size of a request -/

/-- The bytes that a character takes in the JSON. -/
def charSize (c : Char) : ℕ :=
  if c = '"' ∨ c = '\\' ∨ c = '\n' ∨ c = '\r' ∨ c = '\t' then 2
  else if isControl c then 6
  else c.utf8Size

/-- The bytes that a text takes in the JSON. -/
def escapedSize (value : String) : ℕ := (value.toList.map charSize).sum

/-- The bytes that a title takes: its text with two quotes, or `null`. -/
def titleSize : Option String → ℕ
  | none => 4
  | some title => 2 + escapedSize title

/-- The bytes of the JSON of a request, 41 of them for the keys and the punctuation. -/
def jsonSize (request : SubmitRequest) : ℕ :=
  41 + escapedSize request.idempotencyKey + escapedSize request.body + titleSize request.title

theorem lowerHexDigit_ascii (n : ℕ) : (lowerHexDigit n).utf8Size = 1 := by
  have hall : ∀ c ∈ "0123456789abcdef".toList, c.utf8Size = 1 :=
    forall_mem_of_all (by decide)
  unfold lowerHexDigit
  rw [List.getD_eq_getElem?_getD]
  cases hget : "0123456789abcdef".toList[n]? with
  | none => decide
  | some c => exact hall c (List.mem_of_getElem? hget)

theorem size_escapeChar (c : Char) : ((escapeChar c).map Char.utf8Size).sum = charSize c := by
  unfold escapeChar charSize
  by_cases hshort : c = '"' ∨ c = '\\' ∨ c = '\n' ∨ c = '\r' ∨ c = '\t'
  · rw [if_pos hshort]
    rcases hshort with rfl | rfl | rfl | rfl | rfl <;> rfl
  · rw [if_neg hshort]
    simp only [not_or] at hshort
    rw [if_neg hshort.1, if_neg hshort.2.1, if_neg hshort.2.2.1, if_neg hshort.2.2.2.1,
      if_neg hshort.2.2.2.2]
    split_ifs
    · simp only [List.map_cons, List.map_nil, List.sum_cons, List.sum_nil, lowerHexDigit_ascii]
      rfl
    · simp

theorem utf8ByteSize_jsonEscape (value : String) :
    (jsonEscape value).utf8ByteSize = escapedSize value := by
  rw [jsonEscape, utf8ByteSize_ofList, escapedSize]
  induction value.toList with
  | nil => rfl
  | cons c cs ih =>
    rw [List.flatMap_cons, List.map_append, List.sum_append, size_escapeChar, ih, List.map_cons,
      List.sum_cons]

/-- A text grows at most sixfold. -/
theorem escapedSize_le (value : String) : escapedSize value ≤ 6 * value.utf8ByteSize := by
  rw [escapedSize, ← String.ofList_toList (s := value), utf8ByteSize_ofList, String.toList_ofList]
  induction value.toList with
  | nil => simp
  | cons c cs ih =>
    have hchar : charSize c ≤ 6 * c.utf8Size := by
      have hpos := Char.utf8Size_pos c
      unfold charSize
      split_ifs <;> omega
    simp only [List.map_cons, List.sum_cons]
    omega

theorem utf8ByteSize_jsonBody (request : SubmitRequest) :
    (jsonBody request).utf8ByteSize = jsonSize request := by
  have htitle : (match request.title with
      | none => "null"
      | some value => "\"" ++ jsonEscape value ++ "\"").utf8ByteSize = titleSize request.title := by
    cases request.title with
    | none => rfl
    | some title =>
      simp only [String.utf8ByteSize_append, utf8ByteSize_jsonEscape, titleSize]
      rw [show ("\"" : String).utf8ByteSize = 1 from rfl]
      omega
  unfold jsonBody
  simp only [String.utf8ByteSize_append, utf8ByteSize_jsonEscape, htitle, jsonSize]
  rw [show ("\x7b\"idempotency_key\":\"" : String).utf8ByteSize = 20 from rfl,
    show ("\",\"body\":\"" : String).utf8ByteSize = 10 from rfl,
    show ("\",\"title\":" : String).utf8ByteSize = 10 from rfl,
    show ("\x7d" : String).utf8ByteSize = 1 from rfl]
  omega

theorem length_submitBytes (request : SubmitRequest) :
    (submitBytes request).length =
      112 + (Nat.toDigits 10 (jsonSize request)).length + jsonSize request := by
  have hdigits : (toString (jsonSize request)).utf8ByteSize =
      (Nat.toDigits 10 (jsonSize request)).length := by
    rw [Nat.toString_eq_ofList_toDigits, utf8ByteSize_of_ascii, String.toList_ofList]
    intro c hc
    rw [String.toList_ofList] at hc
    have hdigit := isDigit_toDigits hc
    have hrange : 48 ≤ c.toNat ∧ c.toNat ≤ 57 := by
      simpa [Char.isDigit, UInt32.le_iff_toNat_le] using hdigit
    omega
  rw [submitBytes_eq, List.length_append, List.length_append, length_utf8Bytes, length_utf8Bytes,
    String.utf8ByteSize_append, String.utf8ByteSize_append, utf8ByteSize_jsonBody, hdigits,
    show headStart.utf8ByteSize = 89 by decide +kernel, show headEnd.utf8ByteSize = 19 from rfl,
    show blankLine.length = 4 from rfl]
  omega

/-- The frame holds the request when its JSON leaves room for the head with a five-digit length. -/
theorem submitBytes_fits_iff (request : SubmitRequest) :
    (submitBytes request).length ≤ maxRequest ↔ jsonSize request ≤ 16267 := by
  have hmax : maxRequest = 16384 := rfl
  rw [length_submitBytes, hmax]
  constructor
  · intro h
    by_contra hlarge
    -- a larger JSON has at least five digits in its length
    have hdigits : ¬ (Nat.toDigits 10 (jsonSize request)).length ≤ 4 := by
      rw [Nat.length_toDigits_le_iff (by decide) (by decide)]
      omega
    omega
  · intro h
    have hdigits : (Nat.toDigits 10 (jsonSize request)).length ≤ 5 := by
      rw [Nat.length_toDigits_le_iff (by decide) (by decide)]
      omega
    omega

/-! ### Client and service -/

/-- The bytes of a request are one request for the ntfy route, when its length is a `usize`. -/
theorem localStream_submitBytes {request : SubmitRequest}
    (hsize : (jsonBody request).utf8ByteSize ≤ 2 ^ 64 - 1) :
    LocalStream (submitBytes request) .ntfy (utf8Bytes (jsonBody request)) := by
  refine ⟨_, (headStart ++ (toString (jsonBody request).utf8ByteSize ++ headEnd)).toList,
    position_submitBytes request, ?_, ?_, ?_⟩
  · rw [submitBytes_eq, List.take_left, decodeUtf8_utf8Bytes]
  · rw [contentLength_head, if_pos hsize, length_utf8Bytes]
  · rw [submitBytes_eq, ← List.drop_drop, List.drop_left]
    rfl

/-- The message of a request, as the service reads it. -/
def SubmitRequest.message (request : SubmitRequest) : IncomingMessage :=
  ⟨request.idempotencyKey, request.body, request.title⟩

theorem parseNtfyRequest_requestObject (request : SubmitRequest) :
    parseNtfyRequest (requestObject request) = some request.message := by
  have hkey : (Json.Value.object (requestObject request)).get "idempotency_key" =
      some (.string request.idempotencyKey) := rfl
  have hbody : (Json.Value.object (requestObject request)).get "body" =
      some (.string request.body) := rfl
  have htitle : (Json.Value.object (requestObject request)).get "title" =
      some (titleValue request.title) := rfl
  have hlength : (requestObject request).length = 3 := rfl
  unfold parseNtfyRequest
  rw [hkey, hbody, htitle, hlength]
  rcases request with ⟨key, body, _ | title⟩ <;> rfl

/-- A title without line breaks. -/
def PlainTitle (title : Option String) : Prop :=
  ∀ text, title = some text → ∀ c ∈ text.toList, c ≠ '\r' ∧ c ≠ '\n'

/-- Among the requests that the client accepts, the service refuses those with a line break in the
title. -/
theorem validateM2Submission_iff {request : SubmitRequest}
    (hvalid : validateRequest request = .ok ()) {topic : String}
    (htopic : validTopic topic = true) :
    validateM2Submission ⟨request.idempotencyKey, topic, request.title, request.body⟩ = .ok () ↔
      PlainTitle request.title := by
  rw [validateRequest, reject_eq_ok] at hvalid
  simp only [Bool.or_eq_false_iff, decide_eq_false_iff_not, Bool.not_eq_false', not_lt] at hvalid
  obtain ⟨⟨⟨⟨⟨⟨hkeyEmpty, hkeySize⟩, hkeyBytes⟩, hbodyEmpty⟩, hbodySize⟩, hbodyNul⟩, htitle⟩ :=
    hvalid
  have hkey : validIdempotencyKey request.idempotencyKey = true := by
    simp only [validIdempotencyKey, validText, hkeyEmpty, hkeyBytes, notNul_of_keyBytes hkeyBytes,
      decide_eq_true hkeySize, Bool.not_false, Bool.and_self]
  have hbody : validText request.body 4096 = true := by
    simp only [validText, hbodyEmpty, hbodyNul, decide_eq_true hbodySize, Bool.not_false,
      Bool.and_self]
  rw [validateM2Submission, reject_eq_ok]
  simp only [hkey, htopic, hbody, Bool.not_true, Bool.false_or]
  cases htext : request.title with
  | none => simp [PlainTitle]
  | some text =>
    rw [htext] at htitle
    simp only [Option.any_some, Bool.or_eq_false_iff, decide_eq_false_iff_not, not_lt] at htitle
    have hvalidText : validText text 256 = true := by
      simp only [validText, htitle.1.1, htitle.2, decide_eq_true htitle.1.2, Bool.not_false,
        Bool.and_self]
    simp [PlainTitle, hvalidText]

/-- The JSON of an accepted request has less than 28000 bytes. -/
theorem jsonSize_lt {request : SubmitRequest} (hvalid : validateRequest request = .ok ()) :
    jsonSize request < 28000 := by
  rw [validateRequest, reject_eq_ok] at hvalid
  simp only [Bool.or_eq_false_iff, decide_eq_false_iff_not, not_lt] at hvalid
  obtain ⟨⟨⟨⟨⟨⟨-, hkeySize⟩, -⟩, -⟩, hbodySize⟩, -⟩, htitle⟩ := hvalid
  have hkey := escapedSize_le request.idempotencyKey
  have hbody := escapedSize_le request.body
  have htitleSize : titleSize request.title ≤ 2 + 6 * 256 := by
    cases htext : request.title with
    | none => decide
    | some text =>
      rw [htext] at htitle
      simp only [Option.any_some, Bool.or_eq_false_iff, decide_eq_false_iff_not, not_lt] at htitle
      have htext := escapedSize_le text
      simp only [titleSize]
      omega
  unfold jsonSize
  omega

/-- **Client and service.**  Every request that the client accepts is read back by the service as
the same message, and admitted for every topic, in every chunking of the bytes, exactly when its
title has no line break and its JSON has at most 16267 bytes. -/
theorem submit_agrees_iff (json : Json.Codec) (hjson : Agrees json) (request : SubmitRequest)
    (hvalid : validateRequest request = .ok ()) (reads : List ReadResult)
    (hreads : received reads = submitBytes request) :
    (readRequest json reads = .ok (some (.ntfy request.message)) ∧
      ∀ topic, validTopic topic = true →
        validateM2Submission ⟨request.idempotencyKey, topic, request.title, request.body⟩ = .ok ()) ↔
    PlainTitle request.title ∧ jsonSize request ≤ 16267 := by
  have hroute : routeRequest json .ntfy (utf8Bytes (jsonBody request)) =
      some (.ntfy request.message) := by
    unfold routeRequest
    simp only [hjson _ _ (read_jsonBody request), Option.bind_eq_bind, Option.bind_some,
      Json.Value.asObject, parseNtfyRequest_requestObject, Option.map_some]
  have htopic : validTopic "alerts" = true := by decide
  have hstream : LocalStream (received reads) .ntfy (utf8Bytes (jsonBody request)) := by
    rw [hreads]
    apply localStream_submitBytes
    rw [utf8ByteSize_jsonBody]
    have hsize := jsonSize_lt hvalid
    omega
  rw [readRequest_eq_ok_iff json hstream, ← submitBytes_fits_iff, hreads]
  constructor
  · rintro ⟨⟨hfits, -⟩, hadmitted⟩
    exact ⟨(validateM2Submission_iff hvalid htopic).1 (hadmitted _ htopic), hfits⟩
  · rintro ⟨hplain, hfits⟩
    exact ⟨⟨hfits, hroute⟩, fun topic htopic => (validateM2Submission_iff hvalid htopic).2 hplain⟩

/-! ### Two requests of the client -/

/-- A reader that knows the compact flat objects only. -/
def flatCodec : Json.Codec := ⟨JsonText.read, fun _ => none, fun _ => none, fun _ => none⟩

theorem agrees_flatCodec : Agrees flatCodec := fun _ _ h => h

/-- A request with a title that every check admits. -/
def plainRequest : SubmitRequest := ⟨"job-7", "disk full", some "alert"⟩

/-- The same message with a line break in its title. -/
def brokenRequest : SubmitRequest := ⟨"job-7", "disk full", some "ale\nrt"⟩

theorem length_examples : (submitBytes plainRequest).length ≤ 1024 ∧
    (submitBytes brokenRequest).length ≤ 1024 := by
  rw [length_submitBytes, length_submitBytes]
  decide +kernel

/-- All bytes of a request in one read. -/
theorem received_submitBytes {request : SubmitRequest}
    (hsize : (submitBytes request).length ≤ 1024) :
    received [.chunk (submitBytes request) hsize] = submitBytes request := by
  have hne : ¬ (submitBytes request).isEmpty = true := by
    rw [List.isEmpty_iff_length_eq_zero, length_submitBytes]
    omega
  rw [received_cons hne]
  exact List.append_nil _

/-- A plain request reaches the service as it is. -/
theorem plainRequest_agrees :
    readRequest flatCodec [.chunk (submitBytes plainRequest) length_examples.1] =
      .ok (some (.ntfy plainRequest.message)) := by
  refine ((submit_agrees_iff flatCodec agrees_flatCodec plainRequest (by decide) _
    (received_submitBytes length_examples.1)).2 ⟨?_, by decide⟩).1
  intro text htext
  cases htext
  exact forall_mem_of_all (by decide)

/-- A line break in the title passes the client and is refused by the service. -/
theorem submit_title_with_lineBreak :
    ¬ ∀ (json : Json.Codec), Agrees json → ∀ (request : SubmitRequest),
      validateRequest request = .ok () →
      ∀ reads : List ReadResult, received reads = submitBytes request →
        readRequest json reads = .ok (some (.ntfy request.message)) ∧
        ∀ topic, validTopic topic = true →
          validateM2Submission ⟨request.idempotencyKey, topic, request.title, request.body⟩ =
            .ok () := by
  intro h
  have hadmitted := (h flatCodec agrees_flatCodec brokenRequest (by decide) _
    (received_submitBytes length_examples.2)).2 "alerts" (by decide)
  revert hadmitted
  decide

end MsgRiver.Client
