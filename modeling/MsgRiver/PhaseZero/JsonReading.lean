import MsgRiver.PhaseZero.JsonParser

/-!
# What the JSON parser accepts

`JsonParser` reads a dialect of JSON: a form feed is white space, a sign may stand for the first
digit of a `\u` escape, and an escape may not name half of a surrogate pair, so that no pair is
read.

* `turns`: what the calls return was read, without a slice out of range and within the fuel;
* `parse_answers`: what is accepted is a text of the dialect, nested at most 16 deep.
-/

namespace MsgRiver.PhaseZero

open Result Text JsonDialect

mutual

/-- What a value stands for. -/
def JsonValue.tree : JsonValue → Tree
  | .object members => .object (memberTrees members)
  | .array values => .array (valueTrees values)
  | .string text => .string (text.flatMap utf16)
  | .atom => .atom

/-- The trees of the values of an array. -/
def valueTrees : List JsonValue → List Tree
  | [] => []
  | value :: values => value.tree :: valueTrees values

/-- The trees of the members of an object. -/
def memberTrees : List (List Char × JsonValue) → List (List ℕ × Tree)
  | [] => []
  | (key, value) :: members => (key.flatMap utf16, value.tree) :: memberTrees members

end

namespace JsonParser

variable {bytes : List UInt8} {position : ℕ} {text rest : List UInt8}

/-! ### What is returned was read -/

theorem at_whitespace (hat : At bytes position text) :
    ∃ text', White accepted text text' ∧ At bytes (whitespace bytes position) text' ∧
      position ≤ whitespace bytes position :=
  ⟨_, run_dropWhile (fun _ h => isAsciiWhitespace_iff.1 h) text, hat.skipWhile isAsciiWhitespace,
    le_skipWhile isAsciiWhitespace⟩

/-- A value was read from the position on, at the given depth. -/
def ReadsValue (bytes : List UInt8) (depth position : ℕ) (text : List UInt8)
    (p : JsonValue × ℕ) : Prop :=
  ∃ text' rest, White accepted text text' ∧ Derives accepted (.value p.1.tree) text' rest ∧
    At bytes p.2 rest ∧ p.1.tree.nesting + depth ≤ 17 ∧ position < p.2

/-- More members were read. -/
def ReadsMembers (bytes : List UInt8) (depth position : ℕ) (text : List UInt8)
    (read : List (List Char × JsonValue)) (p : JsonValue × ℕ) : Prop :=
  ∃ more rest, p.1 = .object (read ++ more) ∧
    Derives accepted (.members (memberTrees more)) text rest ∧ At bytes p.2 rest ∧
    nestingMembers (memberTrees more) + depth ≤ 16 ∧ position < p.2

/-- More items were read. -/
def ReadsValues (bytes : List UInt8) (depth position : ℕ) (text : List UInt8)
    (read : List JsonValue) (p : JsonValue × ℕ) : Prop :=
  ∃ more rest, p.1 = .array (read ++ more) ∧
    Derives accepted (.items (valueTrees more)) text rest ∧ At bytes p.2 rest ∧
    nestingItems (valueTrees more) + depth ≤ 16 ∧ position < p.2

/-- What a value whose first byte stands at the position answers. -/
def Begun (bytes : List UInt8) (depth position : ℕ) (text : List UInt8) (p : JsonValue × ℕ) :
    Prop :=
  ∃ rest, Derives accepted (.value p.1.tree) text rest ∧ At bytes p.2 rest ∧
    p.1.tree.nesting + depth ≤ 17 ∧ position < p.2

theorem consume_answers {depth : ℕ} {literal : List UInt8} (hdepth : depth ≤ 17)
    (hliteral : literal ≠ [])
    (hderives : ∀ rest, Derives accepted (.value .atom) (literal ++ rest) rest)
    (hat : At bytes position text) :
    Answers (Begun bytes depth position text) (consume bytes literal position) := by
  unfold consume
  refine (answers_reject _).bind fun _ hliteral' => ?_
  have hrange : getRange bytes position (position + literal.length) = some literal := by
    simpa using hliteral'
  obtain ⟨rest, rfl, -⟩ := (getRange_eq_some hat).1 hrange
  have hpos := List.length_pos_iff.2 hliteral
  refine ⟨rest, hderives rest, hat.append, ?_, ?_⟩
  · show 0 + depth ≤ 17
    omega
  · show position < position + literal.length
    omega

theorem deeper_eq {depth : ℕ} (h : depth ≤ 16) : deeper depth = depth + 1 := by
  unfold deeper
  omega

/-! ### One more turn -/

/-- What the turns with the given fuel do. -/
structure Turns (bytes : List UInt8) (fuel : ℕ) : Prop where
  value : ∀ {depth position text}, 2 * (bytes.length - position) < fuel → depth ≤ 17 →
    At bytes position text →
    Answers (ReadsValue bytes depth position text) (value bytes fuel depth position)
  members : ∀ {depth position text} (read), 2 * (bytes.length - position) + 1 < fuel →
    depth ≤ 16 → At bytes position text →
    Answers (ReadsMembers bytes depth position text read) (members bytes fuel depth position read)
  values : ∀ {depth position text} (read), 2 * (bytes.length - position) + 1 < fuel →
    depth ≤ 16 → At bytes position text →
    Answers (ReadsValues bytes depth position text read) (values bytes fuel depth position read)

section Turn

variable {fuel depth : ℕ}

theorem object_turn (h : Turns bytes fuel) (hdepth : depth ≤ 16)
    (hfuel : 2 * (bytes.length - position) < fuel + 1) (hat : At bytes position (0x7b :: text)) :
    Answers (Begun bytes depth position (0x7b :: text))
      (if bytes[whitespace bytes (position + 1)]? = some 0x7d then
        pure (.object [], whitespace bytes (position + 1) + 1)
      else members bytes fuel depth (whitespace bytes (position + 1)) []) := by
  obtain ⟨text', hwhite, hat', hle⟩ := at_whitespace hat.next
  have hlength := hat'.length
  by_cases hclose : bytes[whitespace bytes (position + 1)]? = some 0x7d
  · rw [if_pos hclose]
    obtain ⟨rest, rfl⟩ := hat'.cons_of_get hclose
    refine ⟨rest, .emptyObject hwhite, hat'.next, ?_, ?_⟩
    · show 0 + 1 + depth ≤ 17
      omega
    · show position < whitespace bytes (position + 1) + 1
      omega
  · rw [if_neg hclose]
    refine (h.members [] (by omega) hdepth hat').mono fun p hp => ?_
    obtain ⟨more, rest, hvalue, hderives, hend, hnesting, hforth⟩ := hp
    refine ⟨rest, ?_, hend, ?_, by omega⟩
    · rw [hvalue]
      exact .object (hderives.members_white hwhite)
    · rw [hvalue]
      show nestingMembers (memberTrees more) + 1 + depth ≤ 17
      omega

theorem array_turn (h : Turns bytes fuel) (hdepth : depth ≤ 16)
    (hfuel : 2 * (bytes.length - position) < fuel + 1) (hat : At bytes position (0x5b :: text)) :
    Answers (Begun bytes depth position (0x5b :: text))
      (if bytes[whitespace bytes (position + 1)]? = some 0x5d then
        pure (.array [], whitespace bytes (position + 1) + 1)
      else values bytes fuel depth (whitespace bytes (position + 1)) []) := by
  obtain ⟨text', hwhite, hat', hle⟩ := at_whitespace hat.next
  have hlength := hat'.length
  by_cases hclose : bytes[whitespace bytes (position + 1)]? = some 0x5d
  · rw [if_pos hclose]
    obtain ⟨rest, rfl⟩ := hat'.cons_of_get hclose
    refine ⟨rest, .emptyArray hwhite, hat'.next, ?_, ?_⟩
    · show 0 + 1 + depth ≤ 17
      omega
    · show position < whitespace bytes (position + 1) + 1
      omega
  · rw [if_neg hclose]
    refine (h.values [] (by omega) hdepth hat').mono fun p hp => ?_
    obtain ⟨more, rest, hvalue, hderives, hend, hnesting, hforth⟩ := hp
    refine ⟨rest, ?_, hend, ?_, by omega⟩
    · rw [hvalue]
      exact .array (hderives.items_white hwhite)
    · rw [hvalue]
      show nestingItems (valueTrees more) + 1 + depth ≤ 17
      omega

theorem value_turn (h : Turns bytes fuel) (hfuel : 2 * (bytes.length - position) < fuel + 1)
    (hdepth : depth ≤ 17) (hat : At bytes position text) :
    Answers (ReadsValue bytes depth position text) (value bytes (fuel + 1) depth position) := by
  obtain ⟨text', hwhite, hat', hle⟩ := at_whitespace hat
  have hbegun : ∀ {p}, Begun bytes depth (whitespace bytes position) text' p →
      ReadsValue bytes depth position text p := by
    rintro p ⟨rest, hderives, hend, hnesting, hforth⟩
    exact ⟨text', rest, hwhite, hderives, hend, hnesting, by omega⟩
  rw [value]
  refine (answers_orError _).bind fun byte hbyte => ?_
  obtain ⟨text'', rfl⟩ := hat'.cons_of_get hbyte
  have hfuel' : 2 * (bytes.length - whitespace bytes position) < fuel + 1 := by omega
  -- the first byte decides which part is read
  by_cases hobject : byte = 0x7b
  · subst hobject
    rw [if_pos rfl]
    refine (answers_reject _).bind fun _ hguard => ?_
    exact (object_turn h (by simpa using hguard) hfuel' hat').mono fun p hp => hbegun hp
  rw [if_neg hobject]
  by_cases harray : byte = 0x5b
  · subst harray
    rw [if_pos rfl]
    refine (answers_reject _).bind fun _ hguard => ?_
    exact (array_turn h (by simpa using hguard) hfuel' hat').mono fun p hp => hbegun hp
  rw [if_neg harray]
  by_cases hstring : byte = 0x22
  · rw [if_pos hstring]
    refine (string_answers hat').bind fun p hp => ?_
    obtain ⟨contents, rest, htext, hcontents, hend, hforth⟩ := hp
    rw [htext] at hwhite
    refine ⟨_, rest, hwhite, .string hcontents, hend, ?_, by show position < p.2; omega⟩
    show 0 + depth ≤ 17
    omega
  rw [if_neg hstring]
  by_cases hnumber : byte = 0x2d ∨ isAsciiDigit byte = true
  · rw [if_pos hnumber]
    refine (atomNumber_answers hat').bind fun next hnext => ?_
    obtain ⟨rest, hderives, hend, hforth⟩ := hnext
    refine ⟨_, rest, hwhite, .number hderives, hend, ?_, by show position < next; omega⟩
    show 0 + depth ≤ 17
    omega
  rw [if_neg hnumber]
  by_cases htrue : byte = 0x74
  · rw [if_pos htrue]
    exact (consume_answers hdepth (by simp) (fun _ => .true) hat').mono fun p hp => hbegun hp
  rw [if_neg htrue]
  by_cases hfalse : byte = 0x66
  · rw [if_pos hfalse]
    exact (consume_answers hdepth (by simp) (fun _ => .false) hat').mono fun p hp => hbegun hp
  rw [if_neg hfalse]
  by_cases hnull : byte = 0x6e
  · rw [if_pos hnull]
    exact (consume_answers hdepth (by simp) (fun _ => .null) hat').mono fun p hp => hbegun hp
  rw [if_neg hnull]
  rfl

theorem members_turn (h : Turns bytes fuel) (read : List (List Char × JsonValue))
    (hfuel : 2 * (bytes.length - position) + 1 < fuel + 1) (hdepth : depth ≤ 16)
    (hat : At bytes position text) :
    Answers (ReadsMembers bytes depth position text read)
      (members bytes (fuel + 1) depth position read) := by
  obtain ⟨name, hbefore, hname, hle⟩ := at_whitespace hat
  rw [members]
  refine (string_answers hname).bind ?_
  rintro ⟨key, past⟩ ⟨contents, colon, rfl, hcontents, hcolon, hlt⟩
  dsimp only at hcontents hcolon hlt ⊢
  obtain ⟨colon', hwhite, hcolon', hle'⟩ := at_whitespace hcolon
  refine (answers_reject _).bind fun _ hsep => ?_
  obtain ⟨text', rfl⟩ := hcolon'.cons_of_get (b := 0x3a) (by simpa using hsep)
  have hlength := hcolon'.next.length
  rw [deeper_eq hdepth]
  refine (h.value (by omega) (by omega) hcolon'.next).bind ?_
  rintro ⟨member, behind⟩ ⟨text'', after, hwhite', hvalue, hafter, hnesting, hlt'⟩
  dsimp only at hvalue hafter hnesting hlt' ⊢
  obtain ⟨after', hwhite'', hafter', hle''⟩ := at_whitespace hafter
  have hend := hafter'.length
  -- the loop goes on behind a comma and ends at the brace
  by_cases hcomma : bytes[whitespace bytes behind]? = some 0x2c
  · rw [if_pos hcomma]
    obtain ⟨next, rfl⟩ := hafter'.cons_of_get hcomma
    refine (h.members _ (by omega) hdepth hafter'.next).mono fun p hp => ?_
    obtain ⟨more, rest, hresult, hmore, hrest, hnesting', hlt''⟩ := hp
    refine ⟨(key, member) :: more, rest, ?_, ?_, hrest, ?_, by omega⟩
    · rw [hresult, List.append_assoc]
      rfl
    · exact .moreMembers hbefore hcontents hwhite hwhite' hvalue hwhite'' hmore
    · show max member.tree.nesting (nestingMembers (memberTrees more)) + depth ≤ 16
      omega
  · rw [if_neg hcomma]
    by_cases hclose : bytes[whitespace bytes behind]? = some 0x7d
    · rw [if_pos hclose]
      obtain ⟨rest, rfl⟩ := hafter'.cons_of_get hclose
      refine ⟨[(key, member)], rest, rfl, ?_, hafter'.next, ?_, ?_⟩
      · exact .lastMember hbefore hcontents hwhite hwhite' hvalue hwhite''
      · show max member.tree.nesting 0 + depth ≤ 16
        omega
      · show position < whitespace bytes behind + 1
        omega
    · rw [if_neg hclose]
      rfl

theorem values_turn (h : Turns bytes fuel) (read : List JsonValue)
    (hfuel : 2 * (bytes.length - position) + 1 < fuel + 1) (hdepth : depth ≤ 16)
    (hat : At bytes position text) :
    Answers (ReadsValues bytes depth position text read)
      (values bytes (fuel + 1) depth position read) := by
  rw [values, deeper_eq hdepth]
  refine (h.value (by omega) (by omega) hat).bind ?_
  rintro ⟨item, behind⟩ ⟨text', after, hbefore, hvalue, hafter, hnesting, hlt⟩
  dsimp only at hvalue hafter hnesting hlt ⊢
  obtain ⟨after', hwhite, hafter', hle⟩ := at_whitespace hafter
  have hend := hafter'.length
  by_cases hcomma : bytes[whitespace bytes behind]? = some 0x2c
  · rw [if_pos hcomma]
    obtain ⟨next, rfl⟩ := hafter'.cons_of_get hcomma
    refine (h.values _ (by simp at hend; omega) hdepth hafter'.next).mono fun p hp => ?_
    obtain ⟨more, rest, hresult, hmore, hrest, hnesting', hlt'⟩ := hp
    refine ⟨item :: more, rest, ?_, .moreItems hbefore hvalue hwhite hmore, hrest, ?_, by omega⟩
    · rw [hresult, List.append_assoc]
      rfl
    · show max item.tree.nesting (nestingItems (valueTrees more)) + depth ≤ 16
      omega
  · rw [if_neg hcomma]
    by_cases hclose : bytes[whitespace bytes behind]? = some 0x5d
    · rw [if_pos hclose]
      obtain ⟨rest, rfl⟩ := hafter'.cons_of_get hclose
      refine ⟨[item], rest, rfl, .lastItem hbefore hvalue hwhite, hafter'.next, ?_, ?_⟩
      · show max item.tree.nesting 0 + depth ≤ 16
        omega
      · show position < whitespace bytes behind + 1
        omega
    · rw [if_neg hclose]
      rfl

end Turn

theorem turns (fuel : ℕ) : Turns bytes fuel := by
  induction fuel with
  | zero => exact ⟨fun h => by omega, fun _ h => by omega, fun _ h => by omega⟩
  | succ fuel ih =>
    exact ⟨fun hfuel hdepth hat => value_turn ih hfuel hdepth hat,
      fun read hfuel hdepth hat => members_turn ih read hfuel hdepth hat,
      fun read hfuel hdepth hat => values_turn ih read hfuel hdepth hat⟩

/-- What is accepted is a text that is not nested too deep; no slice is out of range, and the fuel
suffices. -/
theorem parse_answers (bytes : List UInt8) :
    Answers (fun document => Text accepted bytes document.tree ∧ document.tree.nesting ≤ 16)
      (parse bytes) := by
  have hat : At bytes 0 bytes := ⟨Nat.zero_le _, rfl⟩
  unfold parse
  refine (answers_reject _).bind fun _ _ => ?_
  refine ((turns _).value (by omega) (by omega) hat).bind ?_
  rintro ⟨document, position⟩ ⟨text', after, hbefore, hvalue, hafter, hnesting, -⟩
  obtain ⟨rest, hwhite, hrest, -⟩ := at_whitespace hafter
  refine (answers_reject _).bind fun _ hend => ?_
  have hwhole : whitespace bytes position = bytes.length := by simpa using hend
  have hnil : rest = [] := by
    have hlength := hrest.length
    dsimp only at hlength
    exact List.eq_nil_of_length_eq_zero (by omega)
  refine ⟨⟨text', after, hbefore, hvalue, hnil ▸ hwhite⟩, ?_⟩
  dsimp only at hnesting
  omega

end JsonParser

end MsgRiver.PhaseZero
