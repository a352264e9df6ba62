import MsgRiver.Lib.Ascii

/-!
# Dialects of JSON

The grammar of RFC 8259 on bytes, with three places where readers are known to differ: whether a
form feed is white space, whether a sign may stand for the first digit of a `\u` escape, and whether
such an escape may name a half of a surrogate pair.

* `Derives d symbol text rest`: `text` starts with a reading of `symbol` that ends where `rest`
  starts;
* `Text d text tree`: a whole text and what it stands for;
* `marks`: what a scan sees that follows quotes and backslashes only;
* `text_iff_permitted`: a text of one dialect is one of another when the other permits its marks.

A string stands for UTF-16 code units, as in the RFC, so that half a pair stands for something.
-/

namespace JsonDialect

/-- Where a dialect differs from others. -/
structure Dialect where
  formFeed : Bool
  plus : Bool
  surrogates : Bool
  deriving DecidableEq

/-- RFC 8259. -/
def rfc8259 : Dialect := ⟨false, false, true⟩

/-- Everything that some dialect admits. -/
def lenient : Dialect := ⟨true, true, true⟩

/-- What a text stands for; numbers and the literal names are not told apart. -/
inductive Tree
  | atom
  | string (units : List ℕ)
  | array (items : List Tree)
  | object (members : List (List ℕ × Tree))

mutual

/-- How deep arrays and objects are nested. -/
def Tree.nesting : Tree → ℕ
  | .atom => 0
  | .string _ => 0
  | .array items => nestingItems items + 1
  | .object members => nestingMembers members + 1

/-- The deepest of the items. -/
def nestingItems : List Tree → ℕ
  | [] => 0
  | item :: items => max item.nesting (nestingItems items)

/-- The deepest of the members. -/
def nestingMembers : List (List ℕ × Tree) → ℕ
  | [] => 0
  | (_, value) :: members => max value.nesting (nestingMembers members)

end

/-! ### Strings -/

/-- The UTF-16 code units of a character. -/
def utf16 (c : Char) : List ℕ :=
  if c.toNat < 0x10000 then [c.toNat]
  else [0xd800 + (c.toNat - 0x10000) / 0x400, 0xdc00 + (c.toNat - 0x10000) % 0x400]

/-- Halves of a surrogate pair. -/
def isSurrogate (unit : ℕ) : Bool := 0xd800 ≤ unit && unit ≤ 0xdfff

/-- The value of a hexadecimal digit. -/
def hexDigit (b : UInt8) : Option ℕ :=
  if 0x30 ≤ b ∧ b ≤ 0x39 then some (b.toNat - 0x30)
  else if 0x61 ≤ b ∧ b ≤ 0x66 then some (b.toNat - 0x61 + 10)
  else if 0x41 ≤ b ∧ b ≤ 0x46 then some (b.toNat - 0x41 + 10)
  else none

/-- The number that four digits name. -/
def hexCode : List UInt8 → Option ℕ
  | [a, b, c, d] => do
    return (((← hexDigit a) * 16 + (← hexDigit b)) * 16 + (← hexDigit c)) * 16 + (← hexDigit d)
  | _ => none

/-- The code unit of a `\u` escape. -/
def codeUnit (d : Dialect) (digits : List UInt8) : Option ℕ :=
  (hexCode (if d.plus && digits.head? == some 0x2b then 0x30 :: digits.tail else digits)).filter
    fun unit => d.surrogates || !isSurrogate unit

/-- The code unit of an escape of one letter. -/
def letterUnit (letter : UInt8) : Option ℕ :=
  if letter = 0x22 then some 0x22
  else if letter = 0x5c then some 0x5c
  else if letter = 0x2f then some 0x2f
  else if letter = 0x62 then some 0x08
  else if letter = 0x66 then some 0x0c
  else if letter = 0x6e then some 0x0a
  else if letter = 0x72 then some 0x0d
  else if letter = 0x74 then some 0x09
  else none

/-- One character or escape. -/
inductive Piece (d : Dialect) : List UInt8 → List ℕ → List UInt8 → Prop
  | unescaped {c : Char} {rest : List UInt8} (hquote : c ≠ '"') (hslash : c ≠ '\\')
    (hplain : 0x20 ≤ c.toNat) : Piece d (String.utf8EncodeChar c ++ rest) (utf16 c) rest
  | escape {letter : UInt8} {unit : ℕ} {rest : List UInt8} (h : letterUnit letter = some unit) :
    Piece d (0x5c :: letter :: rest) [unit] rest
  | code {digits : List UInt8} {unit : ℕ} {rest : List UInt8}
    (h : codeUnit d digits = some unit) : Piece d (0x5c :: 0x75 :: (digits ++ rest)) [unit] rest

/-- The characters of a string and its closing quote. -/
inductive Contents (d : Dialect) : List UInt8 → List ℕ → List UInt8 → Prop
  | close {rest : List UInt8} : Contents d (0x22 :: rest) [] rest
  | piece {text mid rest : List UInt8} {units more : List ℕ} (hpiece : Piece d text units mid)
    (hmore : Contents d mid more rest) : Contents d text (units ++ more) rest

/-! ### Numbers and white space -/

/-- Bytes of one kind in front of the rest. -/
def Run (p : UInt8 → Prop) (text rest : List UInt8) : Prop :=
  ∃ front, text = front ++ rest ∧ ∀ b ∈ front, p b

/-- A decimal digit. -/
def IsDigit (b : UInt8) : Prop := 0x30 ≤ b ∧ b ≤ 0x39

/-- At least one digit. -/
def Digits (text rest : List UInt8) : Prop := ∃ b text', text = b :: text' ∧ IsDigit b ∧
  Run IsDigit text' rest

/-- An optional minus, a whole part without leading zeros, a fraction and an exponent. -/
inductive Number : List UInt8 → List UInt8 → Prop
  | mk {text whole frac exp rest : List UInt8} (hminus : text = whole ∨ text = 0x2d :: whole)
    (hwhole : whole = 0x30 :: frac ∨
      ∃ b more, whole = b :: more ∧ (0x31 ≤ b ∧ b ≤ 0x39) ∧ Run IsDigit more frac)
    (hfrac : frac = exp ∨ ∃ digits, frac = 0x2e :: digits ∧ Digits digits exp)
    (hexp : exp = rest ∨ ∃ e signed digits, exp = e :: signed ∧ (e = 0x65 ∨ e = 0x45) ∧
      (signed = digits ∨ signed = 0x2b :: digits ∨ signed = 0x2d :: digits) ∧
      Digits digits rest) : Number text rest

/-- White space, with the form feed where the dialect has it. -/
def IsWhite (d : Dialect) (b : UInt8) : Prop :=
  b = 0x20 ∨ b = 0x09 ∨ b = 0x0a ∨ b = 0x0d ∨ (d.formFeed = true ∧ b = 0x0c)

/-- White space. -/
abbrev White (d : Dialect) : List UInt8 → List UInt8 → Prop := Run (IsWhite d)

/-! ### Values -/

/-- What a stretch of text is read as. -/
inductive Symbol
  | value (tree : Tree)
  /-- The items of an array and its closing bracket. -/
  | items (trees : List Tree)
  /-- The members of an object and its closing brace. -/
  | members (entries : List (List ℕ × Tree))

/-- `Derives d s text rest`: the text starts with the symbol, and the rest stands behind it. -/
inductive Derives (d : Dialect) : Symbol → List UInt8 → List UInt8 → Prop
  | null {rest : List UInt8} :
    Derives d (.value .atom) (0x6e :: 0x75 :: 0x6c :: 0x6c :: rest) rest
  | true {rest : List UInt8} :
    Derives d (.value .atom) (0x74 :: 0x72 :: 0x75 :: 0x65 :: rest) rest
  | false {rest : List UInt8} :
    Derives d (.value .atom) (0x66 :: 0x61 :: 0x6c :: 0x73 :: 0x65 :: rest) rest
  | number {text rest : List UInt8} (h : Number text rest) : Derives d (.value .atom) text rest
  | string {text rest : List UInt8} {units : List ℕ} (h : Contents d text units rest) :
    Derives d (.value (.string units)) (0x22 :: text) rest
  | emptyArray {text rest : List UInt8} (h : White d text (0x5d :: rest)) :
    Derives d (.value (.array [])) (0x5b :: text) rest
  | array {text rest : List UInt8} {trees : List Tree} (h : Derives d (.items trees) text rest) :
    Derives d (.value (.array trees)) (0x5b :: text) rest
  | emptyObject {text rest : List UInt8} (h : White d text (0x7d :: rest)) :
    Derives d (.value (.object [])) (0x7b :: text) rest
  | object {text rest : List UInt8} {entries : List (List ℕ × Tree)}
    (h : Derives d (.members entries) text rest) :
    Derives d (.value (.object entries)) (0x7b :: text) rest
  | lastItem {text text' after rest : List UInt8} {tree : Tree} (hbefore : White d text text')
    (hvalue : Derives d (.value tree) text' after) (hafter : White d after (0x5d :: rest)) :
    Derives d (.items [tree]) text rest
  | moreItems {text text' after next rest : List UInt8} {tree : Tree} {trees : List Tree}
    (hbefore : White d text text') (hvalue : Derives d (.value tree) text' after)
    (hafter : White d after (0x2c :: next)) (hmore : Derives d (.items trees) next rest) :
    Derives d (.items (tree :: trees)) text rest
  | lastMember {text name colon text' text'' after rest : List UInt8} {key : List ℕ} {tree : Tree}
    (hbefore : White d text (0x22 :: name)) (hname : Contents d name key colon)
    (hcolon : White d colon (0x3a :: text')) (hbefore' : White d text' text'')
    (hvalue : Derives d (.value tree) text'' after) (hafter : White d after (0x7d :: rest)) :
    Derives d (.members [(key, tree)]) text rest
  | moreMembers {text name colon text' text'' after next rest : List UInt8} {key : List ℕ}
    {tree : Tree} {entries : List (List ℕ × Tree)}
    (hbefore : White d text (0x22 :: name)) (hname : Contents d name key colon)
    (hcolon : White d colon (0x3a :: text')) (hbefore' : White d text' text'')
    (hvalue : Derives d (.value tree) text'' after) (hafter : White d after (0x2c :: next))
    (hmore : Derives d (.members entries) next rest) :
    Derives d (.members ((key, tree) :: entries)) text rest

/-- A whole text. -/
def Text (d : Dialect) (text : List UInt8) (tree : Tree) : Prop :=
  ∃ text' after, White d text text' ∧ Derives d (.value tree) text' after ∧ White d after []

/-! ### A scan -/

/-- What a scan takes note of: a byte outside the strings, and the digits of a `\u` escape. -/
inductive Mark
  | outside (byte : UInt8)
  | code (digits : List UInt8)
  deriving DecidableEq

/-- Where a scan is. -/
inductive Scan
  | outside
  | inside
  | escaped
  | code (seen : List UInt8)

/-- A byte of a scan, with what it marks. -/
def Scan.step : Scan → UInt8 → Scan × List Mark
  | .outside, b => if b = 0x22 then (.inside, []) else (.outside, [.outside b])
  | .inside, b =>
    if b = 0x22 then (.outside, []) else if b = 0x5c then (.escaped, []) else (.inside, [])
  | .escaped, b => if b = 0x75 then (.code [], []) else (.inside, [])
  | .code seen, b =>
    if seen.length = 3 then (.inside, [.code (seen ++ [b])]) else (.code (seen ++ [b]), [])

/-- All marks of a scan. -/
def marks : Scan → List UInt8 → List Mark
  | _, [] => []
  | scan, b :: rest => (scan.step b).2 ++ marks (scan.step b).1 rest

/-- A form feed outside the strings. -/
def hasFormFeed (text : List UInt8) : Bool :=
  (marks .outside text).any fun mark => mark == .outside 0x0c

/-- An escape whose digits start with a sign. -/
def hasPlus (text : List UInt8) : Bool :=
  (marks .outside text).any fun mark =>
    match mark with
    | .outside _ => false
    | .code digits => digits.head? == some 0x2b

/-- An escape that names half of a surrogate pair. -/
def hasSurrogate (text : List UInt8) : Bool :=
  (marks .outside text).any fun mark =>
    match mark with
    | .outside _ => false
    | .code digits => (hexCode digits).any isSurrogate

/-- What a dialect permits. -/
def Permitted (d : Dialect) : Mark → Prop
  | .outside b => b = 0x0c → d.formFeed = true
  | .code digits => (digits.head? = some 0x2b → d.plus = true) ∧
      ∀ unit, hexCode digits = some unit → isSurrogate unit = true → d.surrogates = true

/-- From the scan `s` at `text` to the scan `s'` at `rest` everything seen is permitted in `e`, and
`P` holds of every dialect that permits it. -/
def Scanned (P : Dialect → Prop) (e : Dialect) (s s' : Scan) (text rest : List UInt8) : Prop :=
  ∃ seen, marks s text = seen ++ marks s' rest ∧ (∀ mark ∈ seen, Permitted e mark) ∧
    ∀ d, (∀ mark ∈ seen, Permitted d mark) → P d

section Scanned

variable {P Q : Dialect → Prop} {e : Dialect} {s s' s'' : Scan} {text mid rest : List UInt8}

theorem Scanned.map (h : Scanned P e s s' text rest) (himp : ∀ d, P d → Q d) :
    Scanned Q e s s' text rest := by
  obtain ⟨seen, heq, hseen, hP⟩ := h
  exact ⟨seen, heq, hseen, fun d hd => himp d (hP d hd)⟩

theorem Scanned.trans (h : Scanned P e s s' text mid) (h' : Scanned Q e s' s'' mid rest) :
    Scanned (fun d => P d ∧ Q d) e s s'' text rest := by
  obtain ⟨seen, heq, hseen, hP⟩ := h
  obtain ⟨seen', heq', hseen', hQ⟩ := h'
  refine ⟨seen ++ seen', by rw [heq, heq', List.append_assoc], ?_, ?_⟩
  · intro mark hmark
    rcases List.mem_append.1 hmark with hmark | hmark
    · exact hseen mark hmark
    · exact hseen' mark hmark
  · intro d hd
    exact ⟨hP d fun mark hmark => hd mark (List.mem_append_left _ hmark),
      hQ d fun mark hmark => hd mark (List.mem_append_right _ hmark)⟩

/-- A byte that is seen and permitted everywhere. -/
theorem Scanned.byte {b : UInt8} (hquote : b ≠ 0x22) (hfeed : b ≠ 0x0c)
    (h : Scanned P e .outside s' text rest) : Scanned P e .outside s' (b :: text) rest := by
  obtain ⟨seen, heq, hseen, hP⟩ := h
  have hstep : marks .outside (b :: text) = .outside b :: marks .outside text := by
    simp [marks, Scan.step, hquote]
  refine ⟨.outside b :: seen, by rw [hstep, heq]; rfl, ?_, ?_⟩
  · intro mark hmark
    rcases List.mem_cons.1 hmark with rfl | hmark
    · exact fun hb => absurd hb hfeed
    · exact hseen mark hmark
  · intro d hd
    exact hP d fun mark hmark => hd mark (List.mem_cons_of_mem _ hmark)

theorem scanned_self : Scanned (fun _ => True) e s s text text :=
  ⟨[], rfl, by simp, fun _ _ => trivial⟩

/-- Bytes that are seen and permitted everywhere. -/
theorem scanned_run {p : UInt8 → Prop} (hp : ∀ b, p b → b ≠ 0x22 ∧ b ≠ 0x0c)
    (h : Run p text rest) : Scanned (fun _ => True) e .outside .outside text rest := by
  obtain ⟨front, rfl, hfront⟩ := h
  induction front with
  | nil => exact scanned_self
  | cons b front ih =>
    obtain ⟨hquote, hfeed⟩ := hp b (hfront b List.mem_cons_self)
    exact Scanned.byte hquote hfeed (ih fun c hc => hfront c (List.mem_cons_of_mem _ hc))

theorem scanned_name (name : List UInt8) (h : ∀ b ∈ name, b ≠ 0x22 ∧ b ≠ 0x0c) :
    Scanned (fun _ => True) e .outside .outside (name ++ rest) rest :=
  scanned_run (fun _ hb => hb) ⟨name, rfl, h⟩

theorem scanned_white (h : White e text rest) :
    Scanned (fun d => White d text rest) e .outside .outside text rest := by
  obtain ⟨front, rfl, hfront⟩ := h
  have hstep : ∀ b ∈ front, b ≠ 0x22 := by
    rintro b hb rfl
    have hwhite := hfront _ hb
    simp [IsWhite] at hwhite
  have hmarks : marks .outside (front ++ rest) =
      front.map Mark.outside ++ marks .outside rest := by
    clear hfront
    induction front with
    | nil => rfl
    | cons b front ih =>
      have hb := hstep b List.mem_cons_self
      have hrest := ih fun c hc => hstep c (List.mem_cons_of_mem _ hc)
      simp [marks, Scan.step, hb, hrest]
  refine ⟨front.map Mark.outside, hmarks, ?_, ?_⟩
  · intro mark hmark
    obtain ⟨b, hb, rfl⟩ := List.mem_map.1 hmark
    intro hfeed
    have hwhite := hfront b hb
    subst hfeed
    simpa [IsWhite] using hwhite
  · intro d hd
    refine ⟨front, rfl, ?_⟩
    intro b hb
    have hpermitted := hd (.outside b) (List.mem_map_of_mem hb)
    rcases hfront b hb with h | h | h | h | ⟨-, h⟩
    · exact Or.inl h
    · exact Or.inr (Or.inl h)
    · exact Or.inr (Or.inr (Or.inl h))
    · exact Or.inr (Or.inr (Or.inr (Or.inl h)))
    · exact Or.inr (Or.inr (Or.inr (Or.inr ⟨hpermitted h, h⟩)))

end Scanned

/-! ### Numbers -/

theorem Run.cons {p : UInt8 → Prop} {b : UInt8} {text rest : List UInt8} (hb : p b)
    (h : Run p text rest) : Run p (b :: text) rest := by
  obtain ⟨front, rfl, hfront⟩ := h
  refine ⟨b :: front, rfl, ?_⟩
  intro c hc
  rcases List.mem_cons.1 hc with rfl | hc
  · exact hb
  · exact hfront c hc

theorem Run.refl {p : UInt8 → Prop} (text : List UInt8) : Run p text text :=
  ⟨[], rfl, by simp⟩

theorem Run.trans {p : UInt8 → Prop} {text mid rest : List UInt8} (h : Run p text mid)
    (h' : Run p mid rest) : Run p text rest := by
  obtain ⟨front, rfl, hfront⟩ := h
  obtain ⟨front', rfl, hfront'⟩ := h'
  refine ⟨front ++ front', by rw [List.append_assoc], ?_⟩
  intro b hb
  rcases List.mem_append.1 hb with hb | hb
  · exact hfront b hb
  · exact hfront' b hb

theorem Run.mono {p q : UInt8 → Prop} {text rest : List UInt8} (h : Run p text rest)
    (hpq : ∀ b, p b → q b) : Run q text rest := by
  obtain ⟨front, rfl, hfront⟩ := h
  exact ⟨front, rfl, fun b hb => hpq b (hfront b hb)⟩

/-- The bytes of a number. -/
def IsNumeric (b : UInt8) : Prop :=
  IsDigit b ∨ b = 0x2b ∨ b = 0x2d ∨ b = 0x2e ∨ b = 0x45 ∨ b = 0x65

theorem Digits.run {text rest : List UInt8} (h : Digits text rest) : Run IsNumeric text rest := by
  obtain ⟨b, text', rfl, hb, hrun⟩ := h
  exact Run.cons (Or.inl hb) (hrun.mono fun _ hc => Or.inl hc)

theorem Number.run {text rest : List UInt8} (h : Number text rest) : Run IsNumeric text rest := by
  obtain ⟨hminus, hwhole, hfrac, hexp⟩ := h
  rename_i whole frac exp
  have hexp' : Run IsNumeric exp rest := by
    rcases hexp with rfl | ⟨e, signed, digits, rfl, he, hsign, hdigits⟩
    · exact Run.refl _
    · have hsigned : Run IsNumeric signed rest := by
        rcases hsign with rfl | rfl | rfl
        · exact hdigits.run
        · exact Run.cons (by simp [IsNumeric]) hdigits.run
        · exact Run.cons (by simp [IsNumeric]) hdigits.run
      refine Run.cons ?_ hsigned
      rcases he with rfl | rfl <;> simp [IsNumeric]
  have hfrac' : Run IsNumeric frac rest := by
    rcases hfrac with rfl | ⟨digits, rfl, hdigits⟩
    · exact hexp'
    · exact Run.cons (by simp [IsNumeric]) (hdigits.run.trans hexp')
  have hwhole' : Run IsNumeric whole rest := by
    rcases hwhole with rfl | ⟨b, more, rfl, hb, hmore⟩
    · exact Run.cons (by simp [IsNumeric, IsDigit]) hfrac'
    · have hdigit : IsDigit b := ⟨UInt8.le_trans (by decide) hb.1, hb.2⟩
      exact Run.cons (Or.inl hdigit) ((hmore.mono fun _ hc => Or.inl hc).trans hfrac')
  rcases hminus with rfl | rfl
  · exact hwhole'
  · exact Run.cons (by simp [IsNumeric]) hwhole'

theorem scanned_number {e : Dialect} {text rest : List UInt8} (h : Number text rest) :
    Scanned (fun _ => True) e .outside .outside text rest := by
  refine scanned_run ?_ h.run
  intro b hb
  constructor
  · rintro rfl
    simp [IsNumeric, IsDigit] at hb
  · rintro rfl
    simp [IsNumeric, IsDigit] at hb

/-! ### White space in front -/

theorem Derives.items_white {d : Dialect} {text text' rest : List UInt8} {trees : List Tree}
    (hwhite : White d text text') (h : Derives d (.items trees) text' rest) :
    Derives d (.items trees) text rest := by
  cases h with
  | lastItem hbefore hvalue hafter => exact .lastItem (hwhite.trans hbefore) hvalue hafter
  | moreItems hbefore hvalue hafter hmore =>
    exact .moreItems (hwhite.trans hbefore) hvalue hafter hmore

theorem Derives.members_white {d : Dialect} {text text' rest : List UInt8}
    {entries : List (List ℕ × Tree)} (hwhite : White d text text')
    (h : Derives d (.members entries) text' rest) : Derives d (.members entries) text rest := by
  cases h with
  | lastMember hbefore hname hcolon hbefore' hvalue hafter =>
    exact .lastMember (hwhite.trans hbefore) hname hcolon hbefore' hvalue hafter
  | moreMembers hbefore hname hcolon hbefore' hvalue hafter hmore =>
    exact .moreMembers (hwhite.trans hbefore) hname hcolon hbefore' hvalue hafter hmore

/-! ### Escapes -/

theorem hexDigit_lt {b : UInt8} {n : ℕ} (h : hexDigit b = some n) : n < 16 := by
  unfold hexDigit at h
  split_ifs at h with h1 h2 h3
  · cases h
    have := UInt8.le_iff_toNat_le.1 h1.2
    simp at this
    omega
  · cases h
    have := UInt8.le_iff_toNat_le.1 h2.2
    simp at this
    omega
  · cases h
    have := UInt8.le_iff_toNat_le.1 h3.2
    simp at this
    omega

theorem hexCode_eq_some {digits : List UInt8} {unit : ℕ} (h : hexCode digits = some unit) :
    ∃ a b c d i j k l, digits = [a, b, c, d] ∧ hexDigit a = some i ∧ hexDigit b = some j ∧
      hexDigit c = some k ∧ hexDigit d = some l ∧ unit = ((i * 16 + j) * 16 + k) * 16 + l := by
  unfold hexCode at h
  split at h
  · simp only [Option.bind_eq_bind, Option.bind_eq_some_iff, Option.pure_def,
      Option.some.injEq] at h
    obtain ⟨i, hi, j, hj, k, hk, l, hl, rfl⟩ := h
    exact ⟨_, _, _, _, i, j, k, l, rfl, hi, hj, hk, hl, rfl⟩
  · cases h

theorem hexCode_lt {digits : List UInt8} {unit : ℕ} (h : hexCode digits = some unit) :
    unit < 0x10000 := by
  obtain ⟨_, _, _, _, i, j, k, l, -, hi, hj, hk, hl, rfl⟩ := hexCode_eq_some h
  have hi' := hexDigit_lt hi
  have hj' := hexDigit_lt hj
  have hk' := hexDigit_lt hk
  have hl' := hexDigit_lt hl
  omega

theorem isValidChar_of_lt {unit : ℕ} (h : unit < 0x10000) :
    unit.isValidChar ↔ isSurrogate unit = false := by
  simp only [Nat.isValidChar, isSurrogate, Bool.and_eq_false_iff, decide_eq_false_iff_not]
  omega

theorem utf16_of_lt {c : Char} (h : c.toNat < 0x10000) : utf16 c = [c.toNat] := by
  rw [utf16, if_pos h]

theorem toNat_ofNat_valid {scalar : ℕ} (h : scalar.isValidChar) :
    (Char.ofNat scalar).toNat = scalar := by
  rw [Char.ofNat, dif_pos h]
  rfl

theorem utf16_ofNat {unit : ℕ} (h : unit.isValidChar) (hlt : unit < 0x10000) :
    utf16 (Char.ofNat unit) = [unit] := by
  have hnat := toNat_ofNat_valid h
  rw [utf16_of_lt (by rwa [hnat]), hnat]

/-- A sign is no digit. -/
theorem hexCode_of_plus {digits : List UInt8} (h : digits.head? = some 0x2b) :
    hexCode digits = none := by
  cases hcode : hexCode digits with
  | none => rfl
  | some unit =>
    obtain ⟨a, b, c, d, i, j, k, l, rfl, ha, -⟩ := hexCode_eq_some hcode
    cases h
    cases ha

/-- With a sign in front, three digits are left, too few for half of a surrogate pair. -/
theorem isSurrogate_of_plus {digits : List UInt8} {unit : ℕ}
    (h : hexCode (0x30 :: digits) = some unit) : isSurrogate unit = false := by
  obtain ⟨a, b, c, d, i, j, k, l, hdigits, ha, hb, hc, hd, rfl⟩ := hexCode_eq_some h
  obtain ⟨rfl, -⟩ := List.cons.inj hdigits
  cases ha
  have hj := hexDigit_lt hb
  have hk := hexDigit_lt hc
  have hl := hexDigit_lt hd
  simp [isSurrogate]
  omega

theorem codeUnit_eq_some {d : Dialect} {digits : List UInt8} {unit : ℕ} :
    codeUnit d digits = some unit ↔
      hexCode (if d.plus && digits.head? == some 0x2b then 0x30 :: digits.tail else digits) =
        some unit ∧ (isSurrogate unit = true → d.surrogates = true) := by
  rw [codeUnit, Option.filter_eq_some_iff]
  apply and_congr_right
  intro _
  cases d.surrogates <;> cases isSurrogate unit <;> simp

/-- A dialect reads an escape of another one when it permits its digits. -/
theorem codeUnit_permitted {e : Dialect} {digits : List UInt8} {unit : ℕ}
    (h : codeUnit e digits = some unit) :
    Permitted e (.code digits) ∧
      ∀ d, Permitted d (.code digits) → codeUnit d digits = some unit := by
  obtain ⟨hcode, hsurrogate⟩ := codeUnit_eq_some.1 h
  by_cases hplus : digits.head? = some 0x2b
  · have hnone := hexCode_of_plus hplus
    by_cases he : e.plus = true
    · simp only [he, hplus, beq_self_eq_true, Bool.and_self, if_true] at hcode
      refine ⟨⟨fun _ => he, fun _ hsome => ?_⟩, ?_⟩
      · rw [hnone] at hsome
        cases hsome
      · intro d hd
        apply codeUnit_eq_some.2
        simp only [hd.1 hplus, hplus, beq_self_eq_true, Bool.and_self, if_true]
        refine ⟨hcode, fun htrue => ?_⟩
        rw [isSurrogate_of_plus hcode] at htrue
        cases htrue
    · simp only [Bool.not_eq_true] at he
      simp only [he, Bool.false_and, Bool.false_eq_true, if_false] at hcode
      rw [hnone] at hcode
      cases hcode
  · have hplus' : (digits.head? == some 0x2b) = false := beq_eq_false_iff_ne.2 hplus
    simp only [hplus', Bool.and_false, Bool.false_eq_true, if_false] at hcode
    refine ⟨⟨fun htrue => absurd htrue hplus, fun unit' hunit' => ?_⟩, ?_⟩
    · rw [hcode] at hunit'
      cases hunit'
      exact hsurrogate
    · intro d hd
      apply codeUnit_eq_some.2
      simp only [hplus', Bool.and_false, Bool.false_eq_true, if_false]
      exact ⟨hcode, hd.2 unit hcode⟩

theorem length_of_codeUnit {d : Dialect} {digits : List UInt8} {unit : ℕ}
    (h : codeUnit d digits = some unit) : digits.length = 4 := by
  obtain ⟨a, b, c, d', i, j, k, l, hdigits, -⟩ := hexCode_eq_some (codeUnit_eq_some.1 h).1
  split at hdigits
  · rename_i hplus
    cases digits with
    | nil => simp at hplus
    | cons first digits => simpa using congrArg List.length hdigits
  · rw [hdigits]
    rfl

/-! ### A text is UTF-8 -/

/-- Whole characters in front of the rest. -/
def Encoded (text rest : List UInt8) : Prop :=
  ∃ cs : List Char, text = cs.flatMap String.utf8EncodeChar ++ rest

section Encoded

variable {text mid rest : List UInt8}

theorem Encoded.refl (text : List UInt8) : Encoded text text := ⟨[], rfl⟩

theorem Encoded.trans (h : Encoded text mid) (h' : Encoded mid rest) : Encoded text rest := by
  obtain ⟨cs, rfl⟩ := h
  obtain ⟨cs', rfl⟩ := h'
  exact ⟨cs ++ cs', by rw [List.flatMap_append, List.append_assoc]⟩

theorem Encoded.byte {b : UInt8} (hb : b.toNat < 128) (h : Encoded text rest) :
    Encoded (b :: text) rest := by
  obtain ⟨cs, rfl⟩ := h
  have hchar : String.utf8EncodeChar (Char.ofNat b.toNat) = [b] := by
    have hnat : (Char.ofNat b.toNat).toNat = b.toNat := by
      rw [Char.ofNat, dif_pos (Or.inl (by omega))]
      rfl
    rw [Ascii.utf8EncodeChar_of_ascii (by rwa [hnat]), hnat, UInt8.ofNat_toNat]
  exact ⟨Char.ofNat b.toNat :: cs, by rw [List.flatMap_cons, hchar]; rfl⟩

theorem Run.encoded {p : UInt8 → Prop} (hp : ∀ b, p b → b.toNat < 128) (h : Run p text rest) :
    Encoded text rest := by
  obtain ⟨front, rfl, hfront⟩ := h
  induction front with
  | nil => exact .refl rest
  | cons b front ih =>
    exact (ih fun c hc => hfront c (List.mem_cons_of_mem _ hc)).byte
      (hp b (hfront b List.mem_cons_self))

theorem White.encoded {d : Dialect} (h : White d text rest) : Encoded text rest := by
  refine Run.encoded ?_ h
  rintro b (rfl | rfl | rfl | rfl | ⟨-, rfl⟩) <;> decide

theorem Number.encoded (h : Number text rest) : Encoded text rest := by
  refine Run.encoded ?_ h.run
  rintro b (hdigit | rfl | rfl | rfl | rfl | rfl)
  · have hle := UInt8.le_iff_toNat_le.1 hdigit.2
    simp at hle
    omega
  all_goals decide

theorem ascii_of_hexDigit {b : UInt8} {n : ℕ} (h : hexDigit b = some n) : b.toNat < 128 := by
  unfold hexDigit at h
  split_ifs at h with h1 h2 h3
  · have hle := UInt8.le_iff_toNat_le.1 h1.2
    simp at hle
    omega
  · have hle := UInt8.le_iff_toNat_le.1 h2.2
    simp at hle
    omega
  · have hle := UInt8.le_iff_toNat_le.1 h3.2
    simp at hle
    omega

theorem ascii_of_hexCode {digits : List UInt8} {unit : ℕ} (h : hexCode digits = some unit) :
    ∀ b ∈ digits, b.toNat < 128 := by
  obtain ⟨a, b, c, d, i, j, k, l, rfl, ha, hb, hc, hd, -⟩ := hexCode_eq_some h
  simp [ascii_of_hexDigit ha, ascii_of_hexDigit hb, ascii_of_hexDigit hc, ascii_of_hexDigit hd]

/-- A sign and hexadecimal digits. -/
theorem ascii_of_codeUnit {d : Dialect} {digits : List UInt8} {unit : ℕ}
    (h : codeUnit d digits = some unit) : ∀ b ∈ digits, b.toNat < 128 := by
  have hascii := ascii_of_hexCode (codeUnit_eq_some.1 h).1
  split at hascii
  · rename_i hsign
    cases digits with
    | nil => simp
    | cons first digits =>
      have hfirst : first = 0x2b := by
        have hboth := Bool.and_eq_true_iff.1 hsign
        simpa using hboth.2
      intro b hb
      rcases List.mem_cons.1 hb with rfl | hb
      · rw [hfirst]
        decide
      · exact hascii b (List.mem_cons_of_mem _ hb)
  · exact hascii

theorem letterUnit_ascii {letter : UInt8} {unit : ℕ} (h : letterUnit letter = some unit) :
    letter.toNat < 128 := by
  unfold letterUnit at h
  split_ifs at h <;> subst letter <;> decide

theorem Piece.encoded {d : Dialect} {units : List ℕ} (h : Piece d text units rest) :
    Encoded text rest := by
  cases h with
  | @unescaped c _ _ _ _ => exact ⟨[c], by simp⟩
  | escape h => exact ((Encoded.refl _).byte (letterUnit_ascii h)).byte (by decide)
  | code h =>
    have hdigits : Encoded _ rest := Run.encoded (fun _ hb => hb) ⟨_, rfl, ascii_of_codeUnit h⟩
    exact (hdigits.byte (by decide)).byte (by decide)

theorem Contents.encoded {d : Dialect} {units : List ℕ} (h : Contents d text units rest) :
    Encoded text rest := by
  induction h with
  | close => exact (Encoded.refl _).byte (by decide)
  | piece hpiece _ ih => exact hpiece.encoded.trans ih

theorem Derives.encoded {d : Dialect} {symbol : Symbol} (h : Derives d symbol text rest) :
    Encoded text rest := by
  have hclose : ∀ {b : UInt8} {text rest : List UInt8}, b.toNat < 128 →
      White d text (b :: rest) → Encoded text rest :=
    fun hb hwhite => hwhite.encoded.trans ((Encoded.refl _).byte hb)
  induction h with
  | null => exact Run.encoded (fun _ hb => hb) ⟨[0x6e, 0x75, 0x6c, 0x6c], rfl, by simp⟩
  | true => exact Run.encoded (fun _ hb => hb) ⟨[0x74, 0x72, 0x75, 0x65], rfl, by simp⟩
  | false => exact Run.encoded (fun _ hb => hb) ⟨[0x66, 0x61, 0x6c, 0x73, 0x65], rfl, by simp⟩
  | number h => exact h.encoded
  | string h => exact h.encoded.byte (by decide)
  | emptyArray h => exact (hclose (by decide) h).byte (by decide)
  | array _ ih => exact ih.byte (by decide)
  | emptyObject h => exact (hclose (by decide) h).byte (by decide)
  | object _ ih => exact ih.byte (by decide)
  | lastItem hbefore _ hafter ih =>
    exact hbefore.encoded.trans (ih.trans (hclose (by decide) hafter))
  | moreItems hbefore _ hafter _ ih ih' =>
    exact hbefore.encoded.trans (ih.trans ((hclose (by decide) hafter).trans ih'))
  | lastMember hbefore hname hcolon hbefore' _ hafter ih =>
    have hvalue := hbefore'.encoded.trans (ih.trans (hclose (by decide) hafter))
    exact (hclose (by decide) hbefore).trans
      (hname.encoded.trans ((hclose (by decide) hcolon).trans hvalue))
  | moreMembers hbefore hname hcolon hbefore' _ hafter _ ih ih' =>
    have hvalue := hbefore'.encoded.trans (ih.trans ((hclose (by decide) hafter).trans ih'))
    exact (hclose (by decide) hbefore).trans
      (hname.encoded.trans ((hclose (by decide) hcolon).trans hvalue))

end Encoded

/-- A text is UTF-8. -/
theorem Text.encoded {d : Dialect} {text : List UInt8} {tree : Tree} (h : Text d text tree) :
    ∃ cs : List Char, text = cs.flatMap String.utf8EncodeChar := by
  obtain ⟨text', after, hbefore, hvalue, hafter⟩ := h
  obtain ⟨cs, hcs⟩ := hbefore.encoded.trans (hvalue.encoded.trans hafter.encoded)
  exact ⟨cs, by rw [hcs, List.append_nil]⟩

/-! ### A text and the marks of its scan -/

section Texts

variable {e : Dialect} {text rest : List UInt8}

theorem marks_inside_plain {front : List UInt8} (h : ∀ b ∈ front, b ≠ 0x22 ∧ b ≠ 0x5c) :
    marks .inside (front ++ rest) = marks .inside rest := by
  induction front with
  | nil => rfl
  | cons b front ih =>
    obtain ⟨hquote, hslash⟩ := h b List.mem_cons_self
    have hrest := ih fun c hc => h c (List.mem_cons_of_mem _ hc)
    simp [marks, Scan.step, hquote, hslash, hrest]

/-- The bytes of a character that is written as itself. -/
theorem utf8EncodeChar_plain {c : Char} (hquote : c ≠ '"') (hslash : c ≠ '\\')
    (hplain : 0x20 ≤ c.toNat) {b : UInt8} (hb : b ∈ String.utf8EncodeChar c) :
    b ≠ 0x22 ∧ b ≠ 0x5c ∧ 0x20 ≤ b.toNat := by
  have hne : ∀ a : UInt8, a.toNat < 128 → c.toNat ≠ a.toNat → b ≠ a := by
    rintro a ha hca rfl
    exact hca (Ascii.toNat_of_mem_utf8EncodeChar hb ha)
  refine ⟨hne 0x22 (by decide) ?_, hne 0x5c (by decide) ?_, ?_⟩
  · intro heq
    exact hquote (Char.toNat_inj.1 heq)
  · intro heq
    exact hslash (Char.toNat_inj.1 heq)
  · by_contra hlt
    have hsame := Ascii.toNat_of_mem_utf8EncodeChar hb (by omega)
    omega

theorem scanned_piece {units : List ℕ} (h : Piece e text units rest) :
    Scanned (fun d => Piece d text units rest) e .inside .inside text rest := by
  cases h with
  | unescaped hquote hslash hplain =>
    refine ⟨[], ?_, by simp, fun d _ => .unescaped hquote hslash hplain⟩
    refine marks_inside_plain fun b hb => ?_
    obtain ⟨hq, hs, -⟩ := utf8EncodeChar_plain hquote hslash hplain hb
    exact ⟨hq, hs⟩
  | @escape letter unit _ h =>
    refine ⟨[], ?_, by simp, fun d _ => .escape h⟩
    have hu : letter ≠ 0x75 := by
      rintro rfl
      cases h
    simp [marks, Scan.step, hu]
  | @code digits unit _ h =>
    obtain ⟨hpermitted, hcode⟩ := codeUnit_permitted h
    have hlength := length_of_codeUnit h
    refine ⟨[.code digits], ?_, by simpa using hpermitted,
      fun d hd => .code (hcode d (by simpa using hd))⟩
    rcases digits with _ | ⟨a, _ | ⟨b, _ | ⟨c, _ | ⟨f, _ | ⟨g, digits⟩⟩⟩⟩⟩ <;> simp at hlength
    simp [marks, Scan.step]

theorem scanned_contents {units : List ℕ} (h : Contents e text units rest) :
    Scanned (fun d => Contents d text units rest) e .inside .outside text rest := by
  induction h with
  | close => exact ⟨[], by simp [marks, Scan.step], by simp, fun d _ => .close⟩
  | piece hpiece _ ih => exact ((scanned_piece hpiece).trans ih).map fun d hd => .piece hd.1 hd.2

/-- A string, from its opening quote on. -/
theorem scanned_string {units : List ℕ} (h : Contents e text units rest) :
    Scanned (fun d => Contents d text units rest) e .outside .outside (0x22 :: text) rest := by
  obtain ⟨seen, heq, hseen, hP⟩ := scanned_contents h
  exact ⟨seen, by simpa [marks, Scan.step] using heq, hseen, hP⟩

theorem scanned_derives {symbol : Symbol} (h : Derives e symbol text rest) :
    Scanned (fun d => Derives d symbol text rest) e .outside .outside text rest := by
  induction h with
  | null => exact (scanned_name [0x6e, 0x75, 0x6c, 0x6c] (by simp)).map fun _ _ => .null
  | true => exact (scanned_name [0x74, 0x72, 0x75, 0x65] (by simp)).map fun _ _ => .true
  | false => exact (scanned_name [0x66, 0x61, 0x6c, 0x73, 0x65] (by simp)).map fun _ _ => .false
  | number h => exact (scanned_number h).map fun _ _ => .number h
  | string h => exact (scanned_string h).map fun _ hd => .string hd
  | emptyArray h =>
    have hclose := (scanned_white h).trans (scanned_self.byte (by decide) (by decide))
    exact (hclose.byte (by decide) (by decide)).map fun _ hd => .emptyArray hd.1
  | array _ ih => exact (ih.byte (by decide) (by decide)).map fun _ hd => .array hd
  | emptyObject h =>
    have hclose := (scanned_white h).trans (scanned_self.byte (by decide) (by decide))
    exact (hclose.byte (by decide) (by decide)).map fun _ hd => .emptyObject hd.1
  | object _ ih => exact (ih.byte (by decide) (by decide)).map fun _ hd => .object hd
  | lastItem hbefore _ hafter ih =>
    have hclose := (scanned_white hafter).trans (scanned_self.byte (by decide) (by decide))
    exact ((scanned_white hbefore).trans (ih.trans hclose)).map fun _ hd =>
      .lastItem hd.1 hd.2.1 hd.2.2.1
  | moreItems hbefore _ hafter _ ih ih' =>
    have hcomma := (scanned_white hafter).trans (ih'.byte (by decide) (by decide))
    exact ((scanned_white hbefore).trans (ih.trans hcomma)).map fun _ hd =>
      .moreItems hd.1 hd.2.1 hd.2.2.1 hd.2.2.2
  | lastMember hbefore hname hcolon hbefore' _ hafter ih =>
    have hclose := (scanned_white hafter).trans (scanned_self.byte (by decide) (by decide))
    have hvalue := (scanned_white hbefore').trans (ih.trans hclose)
    have hkey := (scanned_string hname).trans
      ((scanned_white hcolon).trans (hvalue.byte (by decide) (by decide)))
    exact ((scanned_white hbefore).trans hkey).map fun _ hd =>
      .lastMember hd.1 hd.2.1 hd.2.2.1 hd.2.2.2.1 hd.2.2.2.2.1 hd.2.2.2.2.2.1
  | moreMembers hbefore hname hcolon hbefore' _ hafter _ ih ih' =>
    have hcomma := (scanned_white hafter).trans (ih'.byte (by decide) (by decide))
    have hvalue := (scanned_white hbefore').trans (ih.trans hcomma)
    have hkey := (scanned_string hname).trans
      ((scanned_white hcolon).trans (hvalue.byte (by decide) (by decide)))
    exact ((scanned_white hbefore).trans hkey).map fun _ hd =>
      .moreMembers hd.1 hd.2.1 hd.2.2.1 hd.2.2.2.1 hd.2.2.2.2.1 hd.2.2.2.2.2.1 hd.2.2.2.2.2.2

end Texts

/-- The marks of a text of a dialect are permitted there, and the text is one of every dialect that
permits them. -/
theorem Text.permitted {e : Dialect} {text : List UInt8} {tree : Tree} (h : Text e text tree) :
    (∀ mark ∈ marks .outside text, Permitted e mark) ∧
      ∀ d, (∀ mark ∈ marks .outside text, Permitted d mark) → Text d text tree := by
  obtain ⟨text', after, hbefore, hvalue, hafter⟩ := h
  obtain ⟨seen, heq, hseen, hP⟩ :=
    (scanned_white hbefore).trans ((scanned_derives hvalue).trans (scanned_white hafter))
  rw [marks, List.append_nil] at heq
  rw [heq]
  refine ⟨hseen, ?_⟩
  intro d hd
  obtain ⟨hbefore', hvalue', hafter'⟩ := hP d hd
  exact ⟨text', after, hbefore', hvalue', hafter'⟩

/-- A dialect is what is lenient and has only marks that it permits. -/
theorem text_iff_permitted (d : Dialect) (text : List UInt8) (tree : Tree) :
    Text d text tree ↔ Text lenient text tree ∧ ∀ mark ∈ marks .outside text, Permitted d mark := by
  constructor
  · intro h
    obtain ⟨hpermitted, hlenient⟩ := h.permitted
    refine ⟨hlenient lenient ?_, hpermitted⟩
    intro mark _
    cases mark with
    | outside b => exact fun _ => rfl
    | code digits => exact ⟨fun _ => rfl, fun _ _ _ => rfl⟩
  · rintro ⟨hlenient, hpermitted⟩
    exact hlenient.permitted.2 d hpermitted

/-- What a dialect permits, by kind. -/
theorem permitted_iff (d : Dialect) (text : List UInt8) :
    (∀ mark ∈ marks .outside text, Permitted d mark) ↔
      (hasFormFeed text = true → d.formFeed = true) ∧ (hasPlus text = true → d.plus = true) ∧
        (hasSurrogate text = true → d.surrogates = true) := by
  simp only [hasFormFeed, hasPlus, hasSurrogate, List.any_eq_true]
  constructor
  · intro h
    refine ⟨?_, ?_, ?_⟩
    · rintro ⟨mark, hmark, heq⟩
      rw [beq_iff_eq] at heq
      subst heq
      exact h _ hmark rfl
    · rintro ⟨mark, hmark, heq⟩
      cases mark with
      | outside b => cases heq
      | code digits => exact (h _ hmark).1 (by simpa using heq)
    · rintro ⟨mark, hmark, heq⟩
      cases mark with
      | outside b => cases heq
      | code digits =>
        obtain ⟨unit, hunit, hhalf⟩ := (Option.any_eq_true _ _).1 heq
        exact (h _ hmark).2 unit hunit hhalf
  · rintro ⟨hfeed, hplus, hhalf⟩ mark hmark
    cases mark with
    | outside b =>
      rintro rfl
      exact hfeed ⟨_, hmark, by simp⟩
    | code digits =>
      refine ⟨fun hsign => hplus ⟨_, hmark, by simpa using hsign⟩, ?_⟩
      intro unit hunit hsurrogate
      exact hhalf ⟨_, hmark, (Option.any_eq_true _ _).2 ⟨unit, hunit, hsurrogate⟩⟩

end JsonDialect
