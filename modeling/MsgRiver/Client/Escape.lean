import MsgRiver.Client.Submit
import MsgRiver.Lib.JsonGrammar

/-!
# The escape of the client

`json_escape` against the grammar of JSON: each character is written as one character or escape that
stands for it.  So a text between quotes is one string token, and `json_body` is an object of three
members, whatever the request contains (`jsonBody_spec`).
-/

namespace MsgRiver.Client

open JsonText JsonGrammar Text

/-! ### One character -/

theorem isControl_eq_true_iff {c : Char} :
    isControl c = true ↔ c.toNat ≤ 0x1f ∨ 0x7f ≤ c.toNat ∧ c.toNat ≤ 0x9f := by
  simp only [isControl, Bool.or_eq_true, Bool.and_eq_true, decide_eq_true_eq]

/-- A character is written as what stands for it. -/
theorem charToken_escapeChar (c : Char) : CharToken (escapeChar c) c := by
  unfold escapeChar
  split_ifs with hquote hslash hn hr ht hcontrol
  · rw [hquote]
    exact .escape rfl
  · rw [hslash]
    exact .escape rfl
  · rw [hn]
    exact .escape rfl
  · rw [hr]
    exact .escape rfl
  · rw [ht]
    exact .escape rfl
  · refine .code (unicodeEscape_control ?_)
    rcases isControl_eq_true_iff.1 hcontrol with hlow | hhigh
    · omega
    · exact hhigh.2
  · refine .unescaped hquote hslash ?_
    by_contra hlow
    exact hcontrol (isControl_eq_true_iff.2 (Or.inl (by omega)))

theorem isControl_lowerHexDigit (n : ℕ) : isControl (lowerHexDigit n) = false := by
  have hall : ∀ c ∈ "0123456789abcdef".toList, isControl c = false :=
    Ascii.forall_mem_of_all (by decide)
  unfold lowerHexDigit
  rw [List.getD_eq_getElem?_getD]
  cases hget : "0123456789abcdef".toList[n]? with
  | none => decide
  | some c => exact hall c (List.mem_of_getElem? hget)

/-- No control character is left. -/
theorem isControl_of_mem_escapeChar {c written : Char} (h : written ∈ escapeChar c) :
    isControl written = false := by
  unfold escapeChar at h
  split_ifs at h with hquote hslash hn hr ht hcontrol
  · rcases List.mem_pair.1 h with rfl | rfl <;> decide
  · rcases List.mem_pair.1 h with rfl | rfl <;> decide
  · rcases List.mem_pair.1 h with rfl | rfl <;> decide
  · rcases List.mem_pair.1 h with rfl | rfl <;> decide
  · rcases List.mem_pair.1 h with rfl | rfl <;> decide
  · rcases List.mem_cons.1 h with rfl | h
    · decide
    rcases List.mem_cons.1 h with rfl | h
    · decide
    obtain ⟨shift, -, rfl⟩ := List.mem_map.1 h
    exact isControl_lowerHexDigit _
  · rw [List.mem_singleton.1 h]
    simpa using hcontrol

theorem contents_escape (cs : List Char) : Contents (cs.flatMap escapeChar) cs := by
  induction cs with
  | nil => exact .nil
  | cons c cs ih =>
    rw [List.flatMap_cons]
    exact .cons (charToken_escapeChar c) ih

/-! ### A text between quotes -/

/-- A string as the client writes it, with its quotes. -/
def quoted (s : String) : List Char := '"' :: ((jsonEscape s).toList ++ ['"'])

theorem stringToken_quoted (s : String) : StringToken (quoted s) s.toList :=
  ⟨_, rfl, by rw [toList_jsonEscape]; exact contents_escape _⟩

/-- Between quotes, the escaped text is a string token that stands for the text and for nothing
else; it has no control characters, and its only quotes are escaped. -/
structure EscapesText (s : String) : Prop where
  token : ∀ cs, StringToken (quoted s) cs ↔ cs = s.toList
  noControl : ∀ c ∈ (jsonEscape s).toList, isControl c = false
  unquoted : Unquoted (jsonEscape s).toList

theorem escapesText (s : String) : EscapesText s := by
  have hcontents : Contents (jsonEscape s).toList s.toList := by
    rw [toList_jsonEscape]
    exact contents_escape _
  refine ⟨fun cs => ⟨fun h => h.unique (stringToken_quoted s), ?_⟩, ?_, hcontents.unquoted⟩
  · rintro rfl
    exact stringToken_quoted s
  · intro c hc
    rw [toList_jsonEscape] at hc
    obtain ⟨written, -, hwritten⟩ := List.mem_flatMap.1 hc
    exact isControl_of_mem_escapeChar hwritten

/-! ### The object -/

/-- The members of the JSON of a request, in the order of the text. -/
def requestMembers (request : SubmitRequest) : List (String × Json.Value) :=
  [("idempotency_key", .string request.idempotencyKey), ("body", .string request.body),
    ("title", titleValue request.title)]

/-- One member of the body: the quoted key, a colon and the value. -/
def memberText (key : String) (written : List Char) : List Char := quoted key ++ ':' :: written

/-- The three members of the body, in the order in which the client writes them. -/
def memberTexts (request : SubmitRequest) : List (List Char) :=
  [memberText "idempotency_key" (quoted request.idempotencyKey),
    memberText "body" (quoted request.body), memberText "title" (titleText request.title)]

theorem delimited_titleText (title : Option String) :
    Delimited (titleText title) (titleValue title) := by
  cases title with
  | none => exact delimited_null
  | some title =>
    have htoken := delimited_string (stringToken_quoted title)
    rw [String.ofList_toList, quoted, toList_jsonEscape] at htoken
    exact htoken

theorem plainMember_memberText (key : String) {written : List Char} {value : Json.Value}
    (h : Delimited written value) : PlainMember (memberText key written) (key, value) :=
  ⟨quoted key, key.toList, written, rfl, stringToken_quoted key, String.ofList_toList.symm, h⟩

theorem delimited_quoted (s : String) : Delimited (quoted s) (.string s) := by
  have htoken := delimited_string (stringToken_quoted s)
  rwa [String.ofList_toList] at htoken

theorem plainMembers_request (request : SubmitRequest) :
    List.Forall₂ PlainMember (memberTexts request) (requestMembers request) :=
  .cons (plainMember_memberText _ (delimited_quoted _))
    (.cons (plainMember_memberText _ (delimited_quoted _))
      (.cons (plainMember_memberText _ (delimited_titleText _)) .nil))

theorem toList_jsonBody_eq (request : SubmitRequest) :
    (jsonBody request).toList = '{' :: (plainMembers (memberTexts request) ++ ['}']) := by
  have hkey : (jsonEscape "idempotency_key").toList = "idempotency_key".toList := by decide +kernel
  have hbody : (jsonEscape "body").toList = "body".toList := by decide +kernel
  have htitle : (jsonEscape "title").toList = "title".toList := by decide +kernel
  rw [toList_jsonBody]
  simp only [membersText, memberTexts, memberText, plainMembers, quoted, hkey, hbody, htitle,
    toList_jsonEscape, List.append_assoc, List.cons_append, List.nil_append, -String.reduceToList]

/-- **The JSON of the client.** -/
theorem jsonBody_spec :
    (∀ s : String, EscapesText s) ∧
      ∀ (request : SubmitRequest) (value : Json.Value),
        IsText (jsonBody request).toList value ↔ value = .object (requestMembers request) := by
  refine ⟨escapesText, fun request value => ?_⟩
  rw [toList_jsonBody_eq]
  exact isText_plain_iff (plainMembers_request request) (by simp [memberTexts]) value

end MsgRiver.Client
