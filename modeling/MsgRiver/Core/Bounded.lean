import MsgRiver.Lib.Text

/-!
# Admission of text and title

`check_text_content` checks a text and an optional title against their byte limits.  It knows the
default profile, limits of 4096 and 256 bytes, and a few vectors beside it; every other combination
ends at the scaffold frontier, which is neither an acceptance nor a rejection.

* `Admissible`: what an accepted text and title satisfy;
* `Violates`: what a rejection says about them;
* `checkTextContent_truthful`: every answer is true.
-/

namespace MsgRiver.Core.Bounded

open Text

/-- The rejections of `check_text_content`. -/
inductive RejectClass
  | invalidUtf8
  | emptyText
  | invalidTextControl
  | invalidTitleControl
  | titleTooLong
  | textTooLong
  deriving DecidableEq

/-- Where the behaviour is not specified yet. -/
inductive Frontier
  | validateBoundedGrammar
  | canonicalEncode
  deriving DecidableEq

/-- Why a check of the core fails. -/
inductive CoreError
  | scaffold (frontier : Frontier)
  | reject (reason : RejectClass)
  deriving DecidableEq

/-- `char::is_control`, the category `Cc`. -/
def isControl (c : Char) : Bool := c.toNat ≤ 0x1f || (0x7f ≤ c.toNat && c.toNat ≤ 0x9f)

/-- Some character is a control character. -/
def hasControlCharacter (value : List Char) : Bool := value.any isControl

/-- Some control character is there besides tab, line feed and carriage return. -/
def hasDisallowedTextControl (value : List Char) : Bool :=
  value.any fun c => isControl c && !(c == '\t' || c == '\n' || c == '\r')

/-- The answer of a profile that the core does not check yet. -/
def scaffold : Except CoreError Unit := .error (.scaffold .validateBoundedGrammar)

/-- The refusal with a reason. -/
def reject (reason : RejectClass) : Except CoreError Unit := .error (.reject reason)

/-- The answer to an empty text. -/
def checkEmptyText (title : Option (List UInt8)) (defaultProfile : Bool) : Except CoreError Unit :=
  if !defaultProfile then scaffold
  else
    match title with
    | none => reject .emptyText
    | some title =>
      if 256 < title.length then scaffold
      else
        match decodeUtf8 title with
        | none => reject .emptyText
        | some chars =>
          if !chars.isEmpty && chars.all (·.toNat < 128) && !hasControlCharacter chars then
            reject .emptyText
          else scaffold

/-- The title of a multiline text is valid and shorter than its limit. -/
def validCompanion (titleLimit : ℕ) (title : List UInt8) : Bool :=
  match decodeUtf8 title with
  | none => false
  | some chars => !(chars.isEmpty || titleLimit ≤ title.length || hasControlCharacter chars)

/-- The title of a text that is within its limit. -/
def checkTitle (text : List UInt8) (chars : List Char) (title : List UInt8)
    (textLimit titleLimit : ℕ)
    (defaultProfile : Bool) : Except CoreError Unit :=
  if text.length = textLimit then scaffold
  else
    match decodeUtf8 title with
    | none =>
      if titleLimit < title.length then scaffold
      else if title.any fun byte => byte == 0x0d || byte == 0x0a || byte == 0 then scaffold
      else reject .invalidUtf8
    | some titleChars =>
      if chars = "hello".toList ∧ defaultProfile = true ∧ (titleChars = "a\rb".toList ∨
          titleChars = "a\nb".toList ∨ titleChars = "a\x00b".toList) then
        reject .invalidTitleControl
      else if hasControlCharacter titleChars then
        if defaultProfile && text.length < textLimit && title.length < titleLimit then
          reject .invalidTitleControl
        else scaffold
      else if titleLimit < title.length then reject .titleTooLong
      else if defaultProfile then .ok ()
      else scaffold

/-- The length of the text, and the title, once the controls of the text have been checked. -/
def checkLengths (text : List UInt8) (chars : List Char) (title : Option (List UInt8))
    (textLimit titleLimit : ℕ) (defaultProfile : Bool) : Except CoreError Unit :=
  if textLimit < text.length then
    if title.isSome then scaffold else reject .textTooLong
  else
    match title with
    | some title => checkTitle text chars title textLimit titleLimit defaultProfile
    | none =>
      if defaultProfile then .ok ()
      else if text.length = textLimit then .ok ()
      else scaffold

/-- The check of a text with an optional title against two limits, with the profile of the default
limits and the frontier of the others. -/
def checkTextContent (text : List UInt8) (title : Option (List UInt8))
    (textByteLimit titleByteLimit : UInt32) : Except CoreError Unit :=
  let textLimit := textByteLimit.toNat
  let titleLimit := titleByteLimit.toNat
  let defaultProfile := textByteLimit == 4096 && titleByteLimit == 256
  match decodeUtf8 text with
  | none =>
    if title.isNone && text.length ≤ textLimit then reject .invalidUtf8 else scaffold
  | some chars =>
    if text.isEmpty then checkEmptyText title defaultProfile
    else if hasControlCharacter chars then
      if defaultProfile && text.length < textLimit && !hasDisallowedTextControl chars then
        -- every title that is not plainly valid is left to the frontier here
        if title.any fun title => !validCompanion titleLimit title then scaffold
        else checkLengths text chars title textLimit titleLimit defaultProfile
      else if defaultProfile && text.length < textLimit && title.isNone then
        reject .invalidTextControl
      else scaffold
    else checkLengths text chars title textLimit titleLimit defaultProfile

/-! ### What the answers say -/

/-- The characters of a valid text: no control but tab, line feed and carriage return. -/
def AllowedText (chars : List Char) : Prop :=
  ∀ c ∈ chars, isControl c = true → c = '\t' ∨ c = '\n' ∨ c = '\r'

/-- Text and title are as an accepted message has them. -/
structure Admissible (text : List UInt8) (title : Option (List UInt8))
    (textLimit titleLimit : ℕ) : Prop where
  nonempty : text ≠ []
  fits : text.length ≤ textLimit
  text : ∃ chars, decodeUtf8 text = some chars ∧ AllowedText chars
  title : ∀ t ∈ title, (∃ chars, decodeUtf8 t = some chars ∧ ∀ c ∈ chars, isControl c = false) ∧
    t.length ≤ titleLimit

/-- The violation that a rejection names. -/
def Violates (text : List UInt8) (title : Option (List UInt8)) (textLimit titleLimit : ℕ) :
    RejectClass → Prop
  | .invalidUtf8 => decodeUtf8 text = none ∨ ∃ t ∈ title, decodeUtf8 t = none
  | .emptyText => text = []
  | .invalidTextControl => ∃ chars, decodeUtf8 text = some chars ∧ ¬ AllowedText chars
  | .invalidTitleControl =>
    ∃ t ∈ title, ∃ chars, decodeUtf8 t = some chars ∧ ∃ c ∈ chars, isControl c = true
  | .titleTooLong => ∃ t ∈ title, titleLimit < t.length
  | .textTooLong => textLimit < text.length

/-- An acceptance is of an admissible text and title, and a rejection names a violation. -/
def Truthful (text : List UInt8) (title : Option (List UInt8)) (textLimit titleLimit : ℕ)
    (answer : Except CoreError Unit) : Prop :=
  (answer = .ok () → Admissible text title textLimit titleLimit) ∧
    ∀ reason, answer = .error (.reject reason) → Violates text title textLimit titleLimit reason

section Truth

variable {text : List UInt8} {chars : List Char} {title : Option (List UInt8)}
  {textLimit titleLimit : ℕ} {defaultProfile : Bool}

theorem truthful_scaffold : Truthful text title textLimit titleLimit scaffold := by
  refine ⟨fun h => ?_, fun reason h => ?_⟩ <;> cases h

theorem truthful_reject {reason : RejectClass}
    (h : Violates text title textLimit titleLimit reason) :
    Truthful text title textLimit titleLimit (reject reason) := by
  refine ⟨fun hok => ?_, fun reason' hreason => ?_⟩
  · cases hok
  · cases hreason
    exact h

theorem truthful_ok (h : Admissible text title textLimit titleLimit) :
    Truthful text title textLimit titleLimit (.ok ()) := by
  refine ⟨fun _ => h, fun reason hreason => ?_⟩
  cases hreason

theorem hasControlCharacter_eq_false {value : List Char} :
    hasControlCharacter value = false ↔ ∀ c ∈ value, isControl c = false := by
  simp [hasControlCharacter]

theorem hasDisallowedTextControl_eq_false {value : List Char} :
    hasDisallowedTextControl value = false ↔ AllowedText value := by
  simp [hasDisallowedTextControl, AllowedText, or_iff_not_imp_left]

theorem allowedText_of_noControl (h : hasControlCharacter chars = false) : AllowedText chars := by
  intro c hc hcontrol
  rw [hasControlCharacter_eq_false.1 h c hc] at hcontrol
  cases hcontrol

theorem checkEmptyText_truthful (h : text = []) :
    Truthful text title textLimit titleLimit (checkEmptyText title defaultProfile) := by
  have hempty : Truthful text title textLimit titleLimit (reject .emptyText) := truthful_reject h
  unfold checkEmptyText
  by_cases hprofile : (!defaultProfile) = true
  · rw [if_pos hprofile]
    exact truthful_scaffold
  rw [if_neg hprofile]
  cases title with
  | none => exact hempty
  | some t =>
    simp only
    by_cases hlong : 256 < t.length
    · rw [if_pos hlong]
      exact truthful_scaffold
    rw [if_neg hlong]
    cases hdecode : decodeUtf8 t with
    | none => exact hempty
    | some titleChars =>
      simp only
      split_ifs with hplain
      · exact hempty
      · exact truthful_scaffold

theorem checkTitle_truthful {t : List UInt8} (hne : text ≠ [])
    (htext : decodeUtf8 text = some chars)
    (hallowed : AllowedText chars) (hfits : text.length ≤ textLimit) :
    Truthful text (some t) textLimit titleLimit
      (checkTitle text chars t textLimit titleLimit defaultProfile) := by
  unfold checkTitle
  by_cases hfull : text.length = textLimit
  · rw [if_pos hfull]
    exact truthful_scaffold
  rw [if_neg hfull]
  cases hdecode : decodeUtf8 t with
  | none =>
    simp only
    split_ifs with hlong hbreak
    · exact truthful_scaffold
    · exact truthful_scaffold
    · exact truthful_reject (Or.inr ⟨t, rfl, hdecode⟩)
  | some titleChars =>
    simp only
    split_ifs with hvector hcontrol hshort hlong hprofile
    · -- the three vectors hold a control each
      refine truthful_reject ⟨t, rfl, titleChars, hdecode, ?_⟩
      obtain ⟨-, -, rfl | rfl | rfl⟩ := hvector
      · exact ⟨'\r', by decide, by decide⟩
      · exact ⟨'\n', by decide, by decide⟩
      · exact ⟨'\x00', by decide, by decide⟩
    · exact truthful_reject ⟨t, rfl, titleChars, hdecode, List.any_eq_true.1 hcontrol⟩
    · exact truthful_scaffold
    · exact truthful_reject ⟨t, rfl, hlong⟩
    · refine truthful_ok ⟨hne, hfits, ⟨chars, htext, hallowed⟩, fun t' ht' => ?_⟩
      obtain rfl := Option.some.inj ht'
      have hplain := hasControlCharacter_eq_false.1 (Bool.not_eq_true _ ▸ hcontrol)
      exact ⟨⟨titleChars, hdecode, hplain⟩, Nat.le_of_not_lt hlong⟩
    · exact truthful_scaffold

theorem checkLengths_truthful (hne : text ≠ []) (htext : decodeUtf8 text = some chars)
    (hallowed : AllowedText chars) :
    Truthful text title textLimit titleLimit
      (checkLengths text chars title textLimit titleLimit defaultProfile) := by
  unfold checkLengths
  by_cases hlong : textLimit < text.length
  · rw [if_pos hlong]
    split_ifs with htitle
    · exact truthful_scaffold
    · exact truthful_reject hlong
  rw [if_neg hlong]
  have hfits : text.length ≤ textLimit := Nat.le_of_not_lt hlong
  cases title with
  | some t => exact checkTitle_truthful hne htext hallowed hfits
  | none =>
    have hadmissible : Admissible text none textLimit titleLimit := by
      refine ⟨hne, hfits, ⟨chars, htext, hallowed⟩, fun t ht => ?_⟩
      cases ht
    simp only
    split_ifs with hprofile hfull
    · exact truthful_ok hadmissible
    · exact truthful_ok hadmissible
    · exact truthful_scaffold

end Truth

/-- **The answers of `check_text_content` are true**, for all bytes and limits. -/
theorem checkTextContent_truthful (text : List UInt8) (title : Option (List UInt8))
    (textByteLimit titleByteLimit : UInt32) :
    Truthful text title textByteLimit.toNat titleByteLimit.toNat
      (checkTextContent text title textByteLimit titleByteLimit) := by
  unfold checkTextContent
  simp only
  cases hdecode : decodeUtf8 text with
  | none =>
    simp only
    split_ifs with hshort
    · exact truthful_reject (Or.inl hdecode)
    · exact truthful_scaffold
  | some chars =>
    simp only
    split_ifs with hempty hcontrol hplain hcompanion hrejected
    · exact checkEmptyText_truthful (List.isEmpty_iff.1 hempty)
    · exact truthful_scaffold
    · simp only [Bool.and_eq_true, Bool.not_eq_true'] at hplain
      exact checkLengths_truthful (by simpa using hempty) hdecode
        (hasDisallowedTextControl_eq_false.1 hplain.2)
    · -- the text is short and of the default profile, so a control is what is wrong with it
      refine truthful_reject ⟨chars, hdecode, fun hallowed => hplain ?_⟩
      rw [Bool.and_eq_true] at hrejected
      rw [hrejected.1, hasDisallowedTextControl_eq_false.2 hallowed]
      rfl
    · exact truthful_scaffold
    · exact checkLengths_truthful (by simpa using hempty) hdecode
        (allowedText_of_noControl (by simpa using hcontrol))

end MsgRiver.Core.Bounded
