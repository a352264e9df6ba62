import MsgRiver.Lib.JsonText

/-!
# The grammar of JSON

RFC 8259 as relations between a text and the value that it stands for.  The members of an object are
those of the text, in the order of the text.

A string token is a sequence of characters and escapes between quotes.  No character or escape is
the start of another one, so a token stands for one string (`StringToken.unique`), and none contains
a quote that is not escaped (`Contents.unquoted`).
-/

namespace JsonGrammar

open Json JsonText Text

/-! ### Strings -/

/-- The code of a `\uXXXX` escape. -/
def hexCode (a b c d : Char) : Option ℕ := do
  return (((← hexValue a) * 16 + (← hexValue b)) * 16 + (← hexValue c)) * 16 + (← hexValue d)

/-- A character of a string token: itself, an escape, or a pair of surrogates. -/
inductive CharToken : List Char → Char → Prop
  | unescaped {c : Char} (hquote : c ≠ '"') (hslash : c ≠ '\\') (hplain : 0x20 ≤ c.toNat) :
    CharToken [c] c
  | escape {e c : Char} (h : unescape e = some c) : CharToken ['\\', e] c
  | code {a b c d char : Char} (h : unicodeEscape a b c d = some char) :
    CharToken ['\\', 'u', a, b, c, d] char
  | surrogates {a b c d a' b' c' d' : Char} {high low : ℕ} (hhigh : hexCode a b c d = some high)
    (hlow : hexCode a' b' c' d' = some low) (hrange : 0xd800 ≤ high ∧ high ≤ 0xdbff)
    (hrange' : 0xdc00 ≤ low ∧ low ≤ 0xdfff) :
    CharToken ['\\', 'u', a, b, c, d, '\\', 'u', a', b', c', d']
      (Char.ofNat (0x10000 + (high - 0xd800) * 0x400 + (low - 0xdc00)))

/-- The characters between the quotes. -/
inductive Contents : List Char → List Char → Prop
  | nil : Contents [] []
  | cons {written text : List Char} {c : Char} {cs : List Char} (hc : CharToken written c)
    (hcs : Contents text cs) : Contents (written ++ text) (c :: cs)

/-- A string in its quotes. -/
def StringToken (text cs : List Char) : Prop :=
  ∃ contents, text = '"' :: (contents ++ ['"']) ∧ Contents contents cs

/-! ### Values -/

/-- A white space character. -/
def IsWsChar (c : Char) : Prop := c = ' ' ∨ c = '\t' ∨ c = '\n' ∨ c = '\r'

/-- White space, maybe none. -/
def IsWs (text : List Char) : Prop := ∀ c ∈ text, IsWsChar c

/-- A nonempty run of digits. -/
def IsDigits (text : List Char) : Prop := text ≠ [] ∧ ∀ c ∈ text, c.isDigit = true

/-- An optional minus, a whole part without leading zeros, a fraction and an exponent. -/
inductive IsNumber : List Char → Prop
  | mk {minus int frac exp : List Char} (hminus : minus = [] ∨ minus = ['-'])
    (hint : IsDigits int ∧ (int.head? = some '0' → int = ['0']))
    (hfrac : frac = [] ∨ ∃ digits, IsDigits digits ∧ frac = '.' :: digits)
    (hexp : exp = [] ∨ ∃ e sign digits, (e = 'e' ∨ e = 'E') ∧
      (sign = [] ∨ sign = ['+'] ∨ sign = ['-']) ∧ IsDigits digits ∧ exp = e :: (sign ++ digits)) :
    IsNumber (minus ++ int ++ frac ++ exp)

mutual

/-- The text without white space around it stands for the value. -/
inductive Denotes : List Char → Value → Prop
  | null : Denotes "null".toList .null
  | false : Denotes "false".toList (.bool false)
  | true : Denotes "true".toList (.bool true)
  | number {text : List Char} (h : IsNumber text) : Denotes text (.number (String.ofList text))
  | string {text cs : List Char} (h : StringToken text cs) :
    Denotes text (.string (String.ofList cs))
  | emptyArray {ws : List Char} (h : IsWs ws) : Denotes ('[' :: (ws ++ [']'])) (.array [])
  | array {text : List Char} {items : List Value} (h : Items text items) :
    Denotes ('[' :: (text ++ [']'])) (.array items)
  | emptyObject {ws : List Char} (h : IsWs ws) : Denotes ('{' :: (ws ++ ['}'])) (.object [])
  | object {text : List Char} {entries : List (String × Value)} (h : Members text entries) :
    Denotes ('{' :: (text ++ ['}'])) (.object entries)

/-- Values with commas between them. -/
inductive Items : List Char → List Value → Prop
  | last {before text after : List Char} {value : Value} (hbefore : IsWs before)
    (htext : Denotes text value) (hafter : IsWs after) : Items (before ++ (text ++ after)) [value]
  | more {before text after rest : List Char} {value : Value} {items : List Value}
    (hbefore : IsWs before) (htext : Denotes text value) (hafter : IsWs after)
    (hrest : Items rest items) : Items (before ++ (text ++ (after ++ ',' :: rest))) (value :: items)

/-- Members with commas between them. -/
inductive Members : List Char → List (String × Value) → Prop
  | last {text : List Char} {entry : String × Value} (htext : Member text entry) :
    Members text [entry]
  | more {text rest : List Char} {entry : String × Value} {entries : List (String × Value)}
    (htext : Member text entry) (hrest : Members rest entries) :
    Members (text ++ ',' :: rest) (entry :: entries)

/-- A name, a colon and a value. -/
inductive Member : List Char → String × Value → Prop
  | mk {before name after before' text after' cs : List Char} {value : Value}
    (hbefore : IsWs before) (hname : StringToken name cs) (hafter : IsWs after)
    (hbefore' : IsWs before') (htext : Denotes text value) (hafter' : IsWs after') :
    Member (before ++ (name ++ (after ++ ':' :: (before' ++ (text ++ after')))))
      (String.ofList cs, value)

end

/-- A JSON text. -/
def IsText (text : List Char) (value : Value) : Prop :=
  ∃ before inner after, IsWs before ∧ Denotes inner value ∧ IsWs after ∧
    text = before ++ (inner ++ after)

/-! ### One string for a token -/

theorem unicodeEscape_eq (a b c d : Char) :
    unicodeEscape a b c d = (hexCode a b c d).bind fun code =>
      if 0xd800 ≤ code ∧ code ≤ 0xdfff then none else some (Char.ofNat code) := by
  unfold unicodeEscape hexCode
  cases hexValue a <;> cases hexValue b <;> cases hexValue c <;> cases hexValue d <;> rfl

/-- A character or an escape is not the start of another one. -/
theorem CharToken.prefix_free {written written' rest rest' : List Char} {c c' : Char}
    (h : CharToken written c) (h' : CharToken written' c')
    (heq : written ++ rest = written' ++ rest') : c = c' ∧ rest = rest' := by
  -- the first characters tell the forms apart, except a code and a pair of surrogates
  cases h with
  | unescaped hquote hslash hplain =>
    cases h' with
    | unescaped => simpa using heq
    | escape | code | surrogates => simp [hslash] at heq
  | escape he =>
    cases h' with
    | unescaped hquote hslash hplain => simp [hslash.symm] at heq
    | escape he' =>
      simp only [List.cons_append, List.nil_append, List.cons.injEq, true_and] at heq
      obtain ⟨rfl, rfl⟩ := heq
      rw [he] at he'
      exact ⟨Option.some.inj he', rfl⟩
    | code | surrogates =>
      simp only [List.cons_append, List.nil_append, List.cons.injEq, true_and] at heq
      obtain ⟨rfl, -⟩ := heq
      cases he
  | code hcode =>
    cases h' with
    | unescaped hquote hslash hplain => simp [hslash.symm] at heq
    | escape he =>
      simp only [List.cons_append, List.nil_append, List.cons.injEq, true_and] at heq
      obtain ⟨rfl, -⟩ := heq
      cases he
    | code hcode' =>
      simp only [List.cons_append, List.nil_append, List.cons.injEq, true_and] at heq
      obtain ⟨rfl, rfl, rfl, rfl, rfl⟩ := heq
      rw [hcode] at hcode'
      exact ⟨Option.some.inj hcode', rfl⟩
    | surrogates hhigh hlow hrange hrange' =>
      simp only [List.cons_append, List.nil_append, List.cons.injEq, true_and] at heq
      obtain ⟨rfl, rfl, rfl, rfl, -⟩ := heq
      rw [unicodeEscape_eq, hhigh, Option.bind_some, if_pos (by omega)] at hcode
      cases hcode
  | surrogates hhigh hlow hrange hrange' =>
    cases h' with
    | unescaped hquote hslash hplain => simp [hslash.symm] at heq
    | escape he =>
      simp only [List.cons_append, List.nil_append, List.cons.injEq, true_and] at heq
      obtain ⟨rfl, -⟩ := heq
      cases he
    | code hcode =>
      simp only [List.cons_append, List.nil_append, List.cons.injEq, true_and] at heq
      obtain ⟨rfl, rfl, rfl, rfl, -⟩ := heq
      rw [unicodeEscape_eq, hhigh, Option.bind_some, if_pos (by omega)] at hcode
      cases hcode
    | surrogates hhigh' hlow' =>
      simp only [List.cons_append, List.nil_append, List.cons.injEq, true_and] at heq
      obtain ⟨rfl, rfl, rfl, rfl, rfl, rfl, rfl, rfl, rfl⟩ := heq
      rw [hhigh] at hhigh'
      rw [hlow] at hlow'
      cases hhigh'
      cases hlow'
      exact ⟨rfl, rfl⟩

theorem CharToken.exists_cons {written : List Char} {c : Char} (h : CharToken written c) :
    ∃ first rest, written = first :: rest ∧ first ≠ '"' := by
  cases h with
  | unescaped hquote _ _ => exact ⟨_, _, rfl, hquote⟩
  | escape _ => exact ⟨_, _, rfl, by decide⟩
  | code _ => exact ⟨_, _, rfl, by decide⟩
  | surrogates _ _ _ _ => exact ⟨_, _, rfl, by decide⟩

/-- The closing quote is found. -/
theorem Contents.prefix_free {text text' rest rest' cs cs' : List Char} (h : Contents text cs)
    (h' : Contents text' cs') (heq : text ++ '"' :: rest = text' ++ '"' :: rest') :
    cs = cs' ∧ rest = rest' := by
  induction h generalizing text' cs' with
  | nil =>
    cases h' with
    | nil => exact ⟨rfl, (List.cons.inj heq).2⟩
    | cons hc _ =>
      obtain ⟨first, written, rfl, hfirst⟩ := hc.exists_cons
      exact absurd (List.cons.inj heq).1.symm hfirst
  | cons hc hcs ih =>
    cases h' with
    | nil =>
      obtain ⟨first, written, rfl, hfirst⟩ := hc.exists_cons
      exact absurd (List.cons.inj heq).1 hfirst
    | cons hc' hcs' =>
      rw [List.append_assoc, List.append_assoc] at heq
      obtain ⟨rfl, hrest⟩ := hc.prefix_free hc' heq
      obtain ⟨rfl, rfl⟩ := ih hcs' hrest
      exact ⟨rfl, rfl⟩

theorem StringToken.prefix_free {text text' rest rest' cs cs' : List Char}
    (h : StringToken text cs) (h' : StringToken text' cs') (heq : text ++ rest = text' ++ rest') :
    cs = cs' ∧ rest = rest' := by
  obtain ⟨contents, rfl, hcs⟩ := h
  obtain ⟨contents', rfl, hcs'⟩ := h'
  refine hcs.prefix_free hcs' ?_
  simpa using heq

theorem StringToken.unique {text cs cs' : List Char} (h : StringToken text cs)
    (h' : StringToken text cs') : cs = cs' :=
  (h.prefix_free h' (rfl : text ++ [] = text ++ [])).1

/-! ### Quotes -/

/-- Every quote stands behind a backslash that escapes it. -/
def Unquoted : List Char → Prop
  | [] => True
  | '\\' :: _ :: rest => Unquoted rest
  | c :: rest => c ≠ '"' ∧ Unquoted rest

theorem unquoted_cons {c : Char} (hquote : c ≠ '"') (hslash : c ≠ '\\') (rest : List Char) :
    Unquoted (c :: rest) ↔ Unquoted rest := by
  rw [Unquoted.eq_3 c rest (fun _ _ h _ => hslash h)]
  simp [hquote]

theorem unquoted_escape (c : Char) (rest : List Char) :
    Unquoted ('\\' :: c :: rest) ↔ Unquoted rest := by
  rw [Unquoted]

theorem ne_of_hexValue {c : Char} {n : ℕ} (h : hexValue c = some n) : c ≠ '"' ∧ c ≠ '\\' := by
  constructor <;> rintro rfl <;> cases h

/-- The digits of an escape are neither quotes nor backslashes. -/
theorem unquoted_hexCode {a b c d : Char} {n : ℕ} (h : hexCode a b c d = some n)
    (rest : List Char) : Unquoted (a :: b :: c :: d :: rest) ↔ Unquoted rest := by
  simp only [hexCode, Option.bind_eq_bind, Option.bind_eq_some_iff] at h
  obtain ⟨_, ha, _, hb, _, hc, _, hd, -⟩ := h
  rw [unquoted_cons (ne_of_hexValue ha).1 (ne_of_hexValue ha).2,
    unquoted_cons (ne_of_hexValue hb).1 (ne_of_hexValue hb).2,
    unquoted_cons (ne_of_hexValue hc).1 (ne_of_hexValue hc).2,
    unquoted_cons (ne_of_hexValue hd).1 (ne_of_hexValue hd).2]

theorem CharToken.unquoted {written : List Char} {c : Char} (h : CharToken written c)
    (rest : List Char) : Unquoted (written ++ rest) ↔ Unquoted rest := by
  cases h with
  | unescaped hquote hslash _ => exact unquoted_cons hquote hslash rest
  | escape _ => exact unquoted_escape _ rest
  | code hcode =>
    rw [unicodeEscape_eq] at hcode
    obtain ⟨n, hn, -⟩ := Option.bind_eq_some_iff.1 hcode
    exact (unquoted_escape 'u' _).trans (unquoted_hexCode hn rest)
  | surrogates hhigh hlow _ _ =>
    have hsecond := (unquoted_escape 'u' _).trans (unquoted_hexCode hlow rest)
    exact (unquoted_escape 'u' _).trans ((unquoted_hexCode hhigh _).trans hsecond)

/-- A string token ends at the first quote that is not escaped. -/
theorem Contents.unquoted {text cs : List Char} (h : Contents text cs) : Unquoted text := by
  induction h with
  | nil => trivial
  | cons hc _ ih => exact (hc.unquoted _).2 ih

/-! ### Flat objects -/

theorem IsWs.nil_of_append {ws rest rest' : List Char} {c : Char} (h : IsWs ws)
    (hc : ¬ IsWsChar c) (heq : ws ++ rest = c :: rest') : ws = [] ∧ rest = c :: rest' := by
  cases ws with
  | nil => exact ⟨rfl, heq⟩
  | cons first ws =>
    obtain ⟨rfl, -⟩ := List.cons.inj heq
    exact absurd (h first List.mem_cons_self) hc

/-- A value that is seen to be complete where it ends. -/
structure Delimited (written : List Char) (value : Value) : Prop where
  denotes : Denotes written value
  starts : ∃ c rest, written = c :: rest ∧ ¬ IsWsChar c
  unique : ∀ {text rest rest' : List Char} {other : Value}, Denotes text other →
    text ++ rest = written ++ rest' → other = value ∧ rest = rest'

theorem IsNumber.exists_cons {text : List Char} (h : IsNumber text) :
    ∃ c rest, text = c :: rest ∧ (c = '-' ∨ c.isDigit = true) := by
  obtain ⟨hminus, hint, -, -⟩ := h
  rcases hminus with rfl | rfl
  · obtain ⟨⟨hne, hdigits⟩, -⟩ := hint
    obtain ⟨c, int, rfl⟩ := List.exists_cons_of_ne_nil hne
    exact ⟨c, _, rfl, Or.inr (hdigits c List.mem_cons_self)⟩
  · exact ⟨'-', _, rfl, Or.inl rfl⟩

theorem delimited_string {text cs : List Char} (h : StringToken text cs) :
    Delimited text (.string (String.ofList cs)) := by
  obtain ⟨contents, rfl, hcs⟩ := h
  refine ⟨.string ⟨contents, rfl, hcs⟩, ⟨'"', _, rfl, by simp [IsWsChar]⟩, ?_⟩
  intro text rest rest' other hother heq
  cases hother with
  | string hstring =>
    obtain ⟨rfl, hrest⟩ := hstring.prefix_free ⟨contents, rfl, hcs⟩ heq
    exact ⟨rfl, hrest⟩
  | number hnumber =>
    obtain ⟨c, number, rfl, hc⟩ := hnumber.exists_cons
    obtain ⟨rfl, -⟩ := List.cons.inj heq
    rcases hc with hc | hc <;> cases hc
  | null | false | true | emptyArray | array | emptyObject | object => simp at heq

theorem delimited_null : Delimited "null".toList .null := by
  have hnull : "null".toList = ['n', 'u', 'l', 'l'] := rfl
  refine ⟨.null, ⟨'n', _, hnull, by simp [IsWsChar]⟩, ?_⟩
  intro text rest rest' other hother heq
  cases hother with
  | null => exact ⟨rfl, List.append_cancel_left heq⟩
  | string hstring =>
    obtain ⟨contents, rfl, -⟩ := hstring
    simp at heq
  | number hnumber =>
    obtain ⟨c, number, rfl, hc⟩ := hnumber.exists_cons
    obtain ⟨rfl, -⟩ := List.cons.inj heq
    rcases hc with hc | hc <;> cases hc
  | false | true | emptyArray | array | emptyObject | object => simp at heq

/-- A member without white space. -/
def PlainMember (text : List Char) (entry : String × Value) : Prop :=
  ∃ name cs written, text = name ++ ':' :: written ∧ StringToken name cs ∧
    entry.1 = String.ofList cs ∧ Delimited written entry.2

theorem PlainMember.member {text : List Char} {entry : String × Value}
    (h : PlainMember text entry) : Member text entry := by
  obtain ⟨key, value⟩ := entry
  obtain ⟨name, cs, written, rfl, hname, rfl, hwritten⟩ := h
  have hnil : IsWs [] := by simp [IsWs]
  simpa using Member.mk hnil hname hnil hnil hwritten.denotes hnil

/-- It is read in no other way. -/
theorem Member.unique {text text' rest rest' : List Char} {c : Char} {entry entry' : String × Value}
    (h : Member text entry) (h' : PlainMember text' entry') (hc : ¬ IsWsChar c)
    (heq : text ++ rest = text' ++ c :: rest') : entry = entry' ∧ rest = c :: rest' := by
  obtain ⟨key, value⟩ := entry'
  obtain ⟨name', cs', written, rfl, hname', rfl, hwritten⟩ := h'
  obtain ⟨hbefore, hname, hafter, hbefore', htext, hafter'⟩ := h
  simp only [List.append_assoc, List.cons_append] at heq
  obtain ⟨contents', hquote, -⟩ := id hname'
  obtain ⟨first, text', hfirst, hstart⟩ := hwritten.starts
  rw [hquote] at heq
  obtain ⟨rfl, hrest⟩ := hbefore.nil_of_append (by simp [IsWsChar]) heq
  obtain ⟨rfl, hrest⟩ := hname.prefix_free (hquote ▸ hname') hrest
  obtain ⟨rfl, hrest⟩ := hafter.nil_of_append (by simp [IsWsChar]) hrest
  have hvalue := (List.cons.inj hrest).2
  obtain ⟨rfl, -⟩ := hbefore'.nil_of_append hstart (hvalue.trans (by rw [hfirst]; rfl))
  obtain ⟨rfl, hrest⟩ := hwritten.unique htext hvalue
  exact ⟨rfl, (hafter'.nil_of_append hc hrest).2⟩

/-- The first of several members. -/
theorem Members.first {text text' rest rest' : List Char} {c : Char} {entry : String × Value}
    {entries : List (String × Value)} (h : Members text entries) (h' : PlainMember text' entry)
    (hc : ¬ IsWsChar c) (heq : text ++ rest = text' ++ c :: rest') :
    (entries = [entry] ∧ rest = c :: rest') ∨
      ∃ later more, entries = entry :: more ∧ Members later more ∧
        ',' :: (later ++ rest) = c :: rest' := by
  cases h with
  | last hmember =>
    obtain ⟨rfl, hrest⟩ := hmember.unique h' hc heq
    exact Or.inl ⟨rfl, hrest⟩
  | more hmember hlater =>
    rw [List.append_assoc] at heq
    obtain ⟨rfl, hrest⟩ := hmember.unique h' hc heq
    exact Or.inr ⟨_, _, rfl, hlater, hrest⟩

/-- Members with commas between them and nothing else. -/
def plainMembers : List (List Char) → List Char
  | [] => []
  | [text] => text
  | text :: next :: texts => text ++ ',' :: plainMembers (next :: texts)

/-- An object of plain members is read in one way. -/
theorem Members.plain_unique {texts : List (List Char)} {entries : List (String × Value)}
    (hplain : List.Forall₂ PlainMember texts entries) (hne : texts ≠ [])
    {text rest rest' : List Char} {others : List (String × Value)} (h : Members text others)
    (heq : text ++ '}' :: rest = plainMembers texts ++ '}' :: rest') : others = entries := by
  induction hplain generalizing text others with
  | nil => exact absurd rfl hne
  | @cons first entry texts entries hfirst hrest ih =>
    cases hrest with
    | nil =>
      rcases h.first hfirst (by simp [IsWsChar]) heq with ⟨rfl, -⟩ | ⟨_, _, _, _, hcomma⟩
      · rfl
      · cases (List.cons.inj hcomma).1
    | cons hsecond hrest =>
      rw [plainMembers, List.append_assoc] at heq
      rcases h.first hfirst (by simp [IsWsChar]) heq with
        ⟨_, hbrace⟩ | ⟨later, more, rfl, hlater, hcomma⟩
      · cases (List.cons.inj hbrace).1
      · rw [ih (by simp) hlater (List.cons.inj hcomma).2]

theorem members_plain {texts : List (List Char)} {entries : List (String × Value)}
    (hplain : List.Forall₂ PlainMember texts entries) (hne : texts ≠ []) :
    Members (plainMembers texts) entries := by
  induction hplain with
  | nil => exact absurd rfl hne
  | cons hfirst hrest ih =>
    cases hrest with
    | nil => exact .last hfirst.member
    | cons hsecond hrest => exact .more hfirst.member (ih (by simp))

theorem plainMembers_starts {texts : List (List Char)} {entries : List (String × Value)}
    (hplain : List.Forall₂ PlainMember texts entries) (hne : texts ≠ []) :
    ∃ rest, plainMembers texts = '"' :: rest := by
  cases hplain with
  | nil => exact absurd rfl hne
  | @cons _ _ texts _ hfirst hrest =>
    obtain ⟨name, cs, written, rfl, ⟨contents, rfl, -⟩, -⟩ := hfirst
    cases texts with
    | nil => exact ⟨_, rfl⟩
    | cons next texts => exact ⟨_, rfl⟩

/-- **A flat object** stands for its members and for nothing else. -/
theorem isText_plain_iff {texts : List (List Char)} {entries : List (String × Value)}
    (hplain : List.Forall₂ PlainMember texts entries) (hne : texts ≠ []) (value : Value) :
    IsText ('{' :: (plainMembers texts ++ ['}'])) value ↔ value = .object entries := by
  constructor
  · rintro ⟨before, inner, after, hbefore, hinner, -, htext⟩
    obtain ⟨rfl, heq⟩ := hbefore.nil_of_append (by simp [IsWsChar]) htext.symm
    clear htext
    cases hinner with
    | object hmembers =>
      rw [List.cons_append, List.append_assoc] at heq
      rw [hmembers.plain_unique hplain hne (List.cons.inj heq).2]
    | emptyObject hws =>
      obtain ⟨rest, hstart⟩ := plainMembers_starts hplain hne
      rw [hstart, List.cons_append, List.append_assoc] at heq
      have hbrace := (hws.nil_of_append (by simp [IsWsChar]) (List.cons.inj heq).2).2
      cases (List.cons.inj hbrace).1
    | number hnumber =>
      obtain ⟨c, number, rfl, hc⟩ := hnumber.exists_cons
      obtain ⟨rfl, -⟩ := List.cons.inj heq
      rcases hc with hc | hc <;> cases hc
    | string hstring =>
      obtain ⟨contents, rfl, -⟩ := hstring
      simp at heq
    | null | false | true | emptyArray | array => simp at heq
  · rintro rfl
    exact ⟨[], _, [], by simp [IsWs], .object (members_plain hplain hne), by simp [IsWs], by simp⟩

end JsonGrammar
