import MsgRiver.Lib.JsonEncoding

/-!
# Nesting

How deep the brackets of a text are nested, with no regard to anything else: `Nested n text` sees
strings as stretches in which brackets do not count, and all other bytes as themselves.

A JSON text is nested as deep as the arrays and objects that it stands for (`Derives.nested`), so
that a scanner of brackets needs to be right about nested texts only.  This is shown on bytes; a
text on characters is nested as its encoding (`IsText.nested`).
-/

namespace JsonNesting

open Json JsonText Text Ascii

/-- What stands between two quotes: a backslash hides the byte behind it. -/
inductive Quoted : List UInt8 → Prop
  | nil : Quoted []
  | plain {b : UInt8} {text : List UInt8} (hquote : b ≠ 0x22) (hslash : b ≠ 0x5c)
    (hcontrol : 0x20 ≤ b.toNat) (htext : Quoted text) : Quoted (b :: text)
  | escape {b : UInt8} {text : List UInt8} (htext : Quoted text) : Quoted (0x5c :: b :: text)

/-- Quotes, brackets and braces. -/
def structural : List UInt8 := [0x22, 0x5b, 0x5d, 0x7b, 0x7d]

/-- The brackets of the text match and are nested `n` deep. -/
inductive Nested : ℕ → List UInt8 → Prop
  | nil : Nested 0 []
  | plain {b : UInt8} (h : b ∉ structural) : Nested 0 [b]
  | string {text : List UInt8} (h : Quoted text) : Nested 0 (0x22 :: (text ++ [0x22]))
  | array {n : ℕ} {text : List UInt8} (h : Nested n text) :
    Nested (n + 1) (0x5b :: (text ++ [0x5d]))
  | object {n : ℕ} {text : List UInt8} (h : Nested n text) :
    Nested (n + 1) (0x7b :: (text ++ [0x7d]))
  | append {m n : ℕ} {front text : List UInt8} (hfront : Nested m front) (htext : Nested n text) :
    Nested (max m n) (front ++ text)

/-! ### Stretches of text -/

theorem Quoted.append {front text : List UInt8} (hfront : Quoted front) (htext : Quoted text) :
    Quoted (front ++ text) := by
  induction hfront with
  | nil => exact htext
  | plain hquote hslash hcontrol _ ih => exact .plain hquote hslash hcontrol ih
  | escape _ ih => exact .escape ih

theorem quoted_of_plain {text : List UInt8}
    (h : ∀ b ∈ text, b ≠ 0x22 ∧ b ≠ 0x5c ∧ 0x20 ≤ b.toNat) : Quoted text := by
  induction text with
  | nil => exact .nil
  | cons b text ih =>
    obtain ⟨hquote, hslash, hcontrol⟩ := h b List.mem_cons_self
    exact .plain hquote hslash hcontrol (ih fun c hc => h c (List.mem_cons_of_mem _ hc))

theorem nested_of_plain {text : List UInt8} (h : ∀ b ∈ text, b ∉ structural) : Nested 0 text := by
  induction text with
  | nil => exact .nil
  | cons b text ih =>
    have hrest := ih fun c hc => h c (List.mem_cons_of_mem _ hc)
    exact Nested.append (.plain (h b List.mem_cons_self)) hrest

section Append

variable {m n : ℕ} {front text : List UInt8}

/-- What is nested nowhere does not matter. -/
theorem Nested.append_zero (hfront : Nested m front) (htext : Nested 0 text) :
    Nested m (front ++ text) := by
  have happend := hfront.append htext
  rwa [Nat.max_eq_left (Nat.zero_le m)] at happend

theorem Nested.zero_append (hfront : Nested 0 front) (htext : Nested n text) :
    Nested n (front ++ text) := by
  have happend := hfront.append htext
  rwa [Nat.max_eq_right (Nat.zero_le n)] at happend

theorem Nested.cons {b : UInt8} (h : b ∉ structural) (htext : Nested n text) :
    Nested n (b :: text) :=
  Nested.zero_append (.plain h) htext

end Append

/-! ### RFC 8259 on bytes -/

section Bytes

open JsonDialect

/-- Whole stretches in front of the rest: `Quoted` or `Nested` ones. -/
theorem Run.nested {p : UInt8 → Prop} {text rest : List UInt8} (h : Run p text rest)
    (hp : ∀ b, p b → b ∉ structural) : ∃ front, text = front ++ rest ∧ Nested 0 front := by
  obtain ⟨front, rfl, hfront⟩ := h
  exact ⟨front, rfl, nested_of_plain fun b hb => hp b (hfront b hb)⟩

theorem White.nested {d : Dialect} {text rest : List UInt8} (h : White d text rest) :
    ∃ front, text = front ++ rest ∧ Nested 0 front := by
  refine Run.nested h ?_
  rintro b (rfl | rfl | rfl | rfl | ⟨-, rfl⟩) <;> decide

theorem Number.nested {text rest : List UInt8} (h : Number text rest) :
    ∃ front, text = front ++ rest ∧ Nested 0 front := by
  refine Run.nested h.run ?_
  rintro b (hdigit | rfl | rfl | rfl | rfl | rfl)
  · intro hmem
    have hbounds := And.intro (UInt8.le_iff_toNat_le.1 hdigit.1) (UInt8.le_iff_toNat_le.1 hdigit.2)
    simp only [structural, List.mem_cons, List.not_mem_nil, or_false] at hmem
    rcases hmem with rfl | rfl | rfl | rfl | rfl <;> simp at hbounds
  all_goals decide

theorem plain_of_hexDigit {b : UInt8} {n : ℕ} (h : hexDigit b = some n) :
    b ≠ 0x22 ∧ b ≠ 0x5c ∧ 0x20 ≤ b.toNat := by
  refine ⟨?_, ?_, ?_⟩
  · rintro rfl
    cases h
  · rintro rfl
    cases h
  · unfold hexDigit at h
    by_contra hlow
    have hlower : ∀ c : UInt8, 0x20 ≤ c.toNat → ¬ c ≤ b := by
      intro c hc hle
      have hle' := UInt8.le_iff_toNat_le.1 hle
      omega
    rw [if_neg fun hb => hlower 0x30 (by decide) hb.1,
      if_neg fun hb => hlower 0x61 (by decide) hb.1,
      if_neg fun hb => hlower 0x41 (by decide) hb.1] at h
    cases h

theorem Piece.quoted {text rest : List UInt8} {units : List ℕ} (h : Piece rfc8259 text units rest) :
    ∃ front, text = front ++ rest ∧ Quoted front := by
  cases h with
  | unescaped hquote hslash hplain =>
    exact ⟨_, rfl, quoted_of_plain fun b hb => utf8EncodeChar_plain hquote hslash hplain hb⟩
  | @escape letter unit _ h => exact ⟨[0x5c, letter], rfl, .escape .nil⟩
  | @code digits unit _ h =>
    have hcode := (codeUnit_eq_some.1 h).1
    simp only [rfc8259, Bool.false_and, Bool.false_eq_true, if_false] at hcode
    obtain ⟨a, b, c, d, i, j, k, l, rfl, ha, hb, hc, hd, -⟩ := hexCode_eq_some hcode
    refine ⟨[0x5c, 0x75, a, b, c, d], rfl, .escape (quoted_of_plain ?_)⟩
    simp [plain_of_hexDigit ha, plain_of_hexDigit hb, plain_of_hexDigit hc, plain_of_hexDigit hd]

theorem Contents.quoted {text rest : List UInt8} {units : List ℕ}
    (h : Contents rfc8259 text units rest) :
    ∃ front, text = front ++ 0x22 :: rest ∧ Quoted front := by
  induction h with
  | close => exact ⟨[], rfl, .nil⟩
  | piece hpiece _ ih =>
    obtain ⟨front, rfl, hfront⟩ := Piece.quoted hpiece
    obtain ⟨more, rfl, hmore⟩ := ih
    exact ⟨front ++ more, by rw [List.append_assoc], hfront.append hmore⟩

/-- A string, from its opening quote on. -/
theorem nested_string {text rest : List UInt8} {units : List ℕ}
    (h : Contents rfc8259 text units rest) :
    ∃ front, 0x22 :: text = front ++ rest ∧ Nested 0 front := by
  obtain ⟨front, rfl, hfront⟩ := Contents.quoted h
  exact ⟨0x22 :: (front ++ [0x22]), by simp, .string hfront⟩

/-- What a derivation has passed: a value, or items or members up to the closing bracket. -/
def Passed : Symbol → List UInt8 → List UInt8 → Prop
  | .value tree, text, rest => ∃ front, text = front ++ rest ∧ Nested tree.nesting front
  | .items trees, text, rest =>
    ∃ front, text = front ++ 0x5d :: rest ∧ Nested (nestingItems trees) front
  | .members entries, text, rest =>
    ∃ front, text = front ++ 0x7d :: rest ∧ Nested (nestingMembers entries) front

theorem Derives.nested {symbol : Symbol} {text rest : List UInt8}
    (h : Derives rfc8259 symbol text rest) : Passed symbol text rest := by
  have hcomma : (0x2c : UInt8) ∉ structural := by decide
  have hcolon₀ : (0x3a : UInt8) ∉ structural := by decide
  induction h with
  | null => exact ⟨[0x6e, 0x75, 0x6c, 0x6c], rfl,
    nested_of_plain (by simp [structural])⟩
  | true => exact ⟨[0x74, 0x72, 0x75, 0x65], rfl,
    nested_of_plain (by simp [structural])⟩
  | false => exact ⟨[0x66, 0x61, 0x6c, 0x73, 0x65], rfl,
    nested_of_plain (by simp [structural])⟩
  | number h => exact Number.nested h
  | string h => exact nested_string h
  | emptyArray h =>
    obtain ⟨white, rfl, hwhite⟩ := White.nested h
    exact ⟨0x5b :: (white ++ [0x5d]), by simp, .array hwhite⟩
  | array _ ih =>
    obtain ⟨front, rfl, hfront⟩ := ih
    exact ⟨0x5b :: (front ++ [0x5d]), by simp, .array hfront⟩
  | emptyObject h =>
    obtain ⟨white, rfl, hwhite⟩ := White.nested h
    exact ⟨0x7b :: (white ++ [0x7d]), by simp, .object hwhite⟩
  | object _ ih =>
    obtain ⟨front, rfl, hfront⟩ := ih
    exact ⟨0x7b :: (front ++ [0x7d]), by simp, .object hfront⟩
  | lastItem hbefore _ hafter ih =>
    -- white space and commas do not nest, so the parts only take their maximum
    obtain ⟨before, rfl, hfirst⟩ := White.nested hbefore
    obtain ⟨value, rfl, hvalue⟩ := ih
    obtain ⟨after, rfl, hlast⟩ := White.nested hafter
    refine ⟨before ++ (value ++ after), by simp, ?_⟩
    have hitem := hfirst.zero_append (hvalue.append_zero hlast)
    simpa [nestingItems] using hitem
  | moreItems hbefore _ hafter _ ih ih' =>
    obtain ⟨before, rfl, hfirst⟩ := White.nested hbefore
    obtain ⟨value, rfl, hvalue⟩ := ih
    obtain ⟨after, rfl, hlast⟩ := White.nested hafter
    obtain ⟨more, rfl, hmore⟩ := ih'
    refine ⟨before ++ (value ++ after) ++ 0x2c :: more, by simp, ?_⟩
    exact (hfirst.zero_append (hvalue.append_zero hlast)).append (hmore.cons hcomma)
  | lastMember hbefore hname hcolon hbefore' _ hafter ih =>
    obtain ⟨before, rfl, hfirst⟩ := White.nested hbefore
    obtain ⟨name, hname', hkey⟩ := nested_string hname
    obtain ⟨colon, rfl, hmid⟩ := White.nested hcolon
    obtain ⟨before', rfl, hsecond⟩ := White.nested hbefore'
    obtain ⟨value, rfl, hvalue⟩ := ih
    obtain ⟨after, rfl, hlast⟩ := White.nested hafter
    refine ⟨before ++ (name ++ (colon ++ 0x3a :: (before' ++ (value ++ after)))), ?_, ?_⟩
    · rw [hname']
      simp
    · have hbehind := (hsecond.zero_append (hvalue.append_zero hlast)).cons hcolon₀
      have hmember := hfirst.zero_append (hkey.zero_append (hmid.zero_append hbehind))
      simpa [nestingMembers] using hmember
  | moreMembers hbefore hname hcolon hbefore' _ hafter _ ih ih' =>
    obtain ⟨before, rfl, hfirst⟩ := White.nested hbefore
    obtain ⟨name, hname', hkey⟩ := nested_string hname
    obtain ⟨colon, rfl, hmid⟩ := White.nested hcolon
    obtain ⟨before', rfl, hsecond⟩ := White.nested hbefore'
    obtain ⟨value, rfl, hvalue⟩ := ih
    obtain ⟨after, rfl, hlast⟩ := White.nested hafter
    obtain ⟨more, rfl, hmore⟩ := ih'
    refine ⟨before ++ (name ++ (colon ++ 0x3a :: (before' ++ (value ++ after)))) ++
      0x2c :: more, ?_, ?_⟩
    · rw [hname']
      simp
    · have hbehind := (hsecond.zero_append (hvalue.append_zero hlast)).cons hcolon₀
      have hmember := hfirst.zero_append (hkey.zero_append (hmid.zero_append hbehind))
      exact hmember.append (hmore.cons hcomma)

/-- A text is nested as deep as what it stands for. -/
theorem Text.nested {text : List UInt8} {tree : Tree} (h : JsonDialect.Text rfc8259 text tree) :
    Nested tree.nesting text := by
  obtain ⟨text', after, hbefore, hvalue, hafter⟩ := h
  obtain ⟨before, rfl, hfirst⟩ := White.nested hbefore
  obtain ⟨value, rfl, hinner⟩ := Derives.nested hvalue
  obtain ⟨after, rfl, hlast⟩ := White.nested hafter
  rw [List.append_nil]
  exact hfirst.zero_append (hinner.append_zero hlast)

end Bytes

/-! ### RFC 8259 on characters -/

section Values

mutual

/-- How deep arrays and objects are nested. -/
def nesting : Value → ℕ
  | .null => 0
  | .bool _ => 0
  | .number _ => 0
  | .string _ => 0
  | .array items => itemsNesting items + 1
  | .object entries => entriesNesting entries + 1

/-- The deepest of the items. -/
def itemsNesting : List Value → ℕ
  | [] => 0
  | item :: items => max (nesting item) (itemsNesting items)

/-- The deepest of the members. -/
def entriesNesting : List (String × Value) → ℕ
  | [] => 0
  | (_, value) :: entries => max (nesting value) (entriesNesting entries)

end

mutual

/-- The value and all values in it have the property. -/
def Everywhere (p : Value → Prop) : Value → Prop
  | .null => p .null
  | .bool b => p (.bool b)
  | .number literal => p (.number literal)
  | .string s => p (.string s)
  | .array items => p (.array items) ∧ itemsEverywhere p items
  | .object entries => p (.object entries) ∧ entriesEverywhere p entries

/-- All items have the property, and all values in them. -/
def itemsEverywhere (p : Value → Prop) : List Value → Prop
  | [] => True
  | item :: items => Everywhere p item ∧ itemsEverywhere p items

/-- All member values have the property, and all values in them. -/
def entriesEverywhere (p : Value → Prop) : List (String × Value) → Prop
  | [] => True
  | (_, value) :: entries => Everywhere p value ∧ entriesEverywhere p entries

end

/-- No two members have the same name. -/
def DistinctKeys : Value → Prop
  | .object entries => (entries.map Prod.fst).Nodup
  | _ => True

/-- A number is one that `finite` admits. -/
def FiniteNumber (finite : String → Prop) : Value → Prop
  | .number literal => finite literal
  | _ => True

end Values

section Chars

open JsonGrammar

mutual

theorem nesting_treeOf (value : Value) : (treeOf value).nesting = nesting value := by
  cases value with
  | null | bool | number | string => rfl
  | array items => exact congrArg (· + 1) (nesting_treesOf items)
  | object entries => exact congrArg (· + 1) (nesting_membersOf entries)

theorem nesting_treesOf (items : List Value) :
    JsonDialect.nestingItems (treesOf items) = itemsNesting items := by
  cases items with
  | nil => rfl
  | cons item items => exact congrArg₂ max (nesting_treeOf item) (nesting_treesOf items)

theorem nesting_membersOf (entries : List (String × Value)) :
    JsonDialect.nestingMembers (membersOf entries) = entriesNesting entries := by
  match entries with
  | [] => rfl
  | (_, value) :: entries =>
    exact congrArg₂ max (nesting_treeOf value) (nesting_membersOf entries)

end

/-- A text is nested as deep as its value. -/
theorem IsText.nested {text : List Char} {value : Value} (h : IsText text value) :
    Nested (nesting value) (bytesOf text) := by
  rw [← nesting_treeOf]
  exact Text.nested h.encoded

end Chars

end JsonNesting
