import Mathlib.Data.List.TakeWhile
import MsgRiver.PhaseZero.JsonReading

/-!
# Which texts the JSON parser accepts

What is written in the dialect and is not nested too deep is accepted, and stands for the value that
is returned.

* `reads_of_derives`: a part of a text is read to its end;
* `parse_eq_ok_iff`: what is accepted;
* `conforms_iff`: the inputs for which that is JSON as RFC 8259 has it.
-/

namespace MsgRiver.PhaseZero.JsonParser

open Result Text JsonDialect

variable {bytes : List UInt8} {position : ℕ} {text rest : List UInt8}

/-! ### Strings -/

/-- Plain bytes are passed over. -/
theorem stringFrom_plain {front : List UInt8} {segment : ℕ} {result : List Char} (fuel : ℕ)
    (hplain : ∀ b ∈ front, IsPlain b) (hat : At bytes position (front ++ rest))
    {p : List Char × ℕ} :
    stringFrom bytes (fuel + front.length) segment position result = .ok p ↔
      stringFrom bytes fuel segment (position + front.length) result = .ok p := by
  induction front generalizing position with
  | nil => rfl
  | cons b front ih =>
    obtain ⟨hquote, hslash, hcontrol⟩ := hplain b List.mem_cons_self
    have hget : bytes[position]? = some b := hat.get
    have hle : ¬ b ≤ 31 := by
      rw [UInt8.le_iff_toNat_le]
      simp
      omega
    have hmore := ih (fun c hc => hplain c (List.mem_cons_of_mem _ hc)) hat.next
    have hend : position + 1 + front.length = position + (front.length + 1) := by omega
    rw [hend] at hmore
    rw [List.length_cons, ← hmore, ← Nat.add_assoc, stringFrom, orError_bind_eq_ok]
    simp [hget, hquote, hle, hslash]

theorem pending_append {segment : ℕ} {front : List UInt8} (h : segment ≤ position)
    (hat : At bytes position (front ++ rest)) :
    pending bytes segment (position + front.length) = pending bytes segment position ++ front := by
  induction front generalizing position with
  | nil => simp
  | cons b front ih =>
    have hnext := ih (Nat.le_succ_of_le h) hat.next
    rw [pending_succ h hat, List.append_assoc] at hnext
    rw [List.length_cons, Nat.add_comm front.length, ← Nat.add_assoc]
    exact hnext

theorem decodeUtf8_encoded (cs : List Char) :
    decodeUtf8 (cs.flatMap String.utf8EncodeChar) = some cs := by
  rw [decodeUtf8_eq_some, Ascii.utf8Bytes_eq_flatMap, String.toList_ofList]

theorem pushedText_of_pending {segment : ℕ} {cs : List Char} (h : segment ≤ position)
    (hlength : position ≤ bytes.length)
    (hpending : pending bytes segment position = cs.flatMap String.utf8EncodeChar) :
    pushedText bytes segment position = .ok cs := by
  rw [pushedText_eq h hlength, hpending, decodeUtf8_encoded]
  rfl

/-- An escape of the dialect is read. -/
theorem escape_of_letter {letter : UInt8} {unit : ℕ} (h : letterUnit letter = some unit)
    (hat : At bytes position (letter :: rest)) :
    ∃ c, escape bytes position = .ok (c, position + 1) ∧ utf16 c = [unit] := by
  rw [letterEscape_eq, Option.map_eq_some_iff] at h
  obtain ⟨c, hc, rfl⟩ := h
  refine ⟨c, ?_, utf16_letterEscape hc⟩
  refine orError_bind_eq_ok.2 ⟨letter, hat.get, ?_⟩
  rw [hc]
  rfl

theorem escape_of_code {digits : List UInt8} {unit : ℕ} (h : codeUnit accepted digits = some unit)
    (hat : At bytes position (0x75 :: (digits ++ rest))) :
    ∃ c, escape bytes position = .ok (c, position + 5) ∧ utf16 c = [unit] := by
  have hlength := length_of_codeUnit h
  obtain ⟨hradix, hvalid⟩ := (codeUnit_accepted hlength).1 h
  have hlt := lt_of_fromStrRadix hlength hradix
  refine ⟨Char.ofNat unit, ?_, utf16_ofNat hvalid hlt⟩
  have hrange : getRange bytes (position + 1) (position + 5) = some digits :=
    (getRange_eq_some hat.next (n := 4)).2 ⟨rest, rfl, hlength⟩
  have hdecode : (decodeUtf8 digits).isNone = false := by
    obtain ⟨cs, hcs⟩ := Run.encoded (fun _ hb => hb)
      ⟨digits, (List.append_nil _).symm, ascii_of_codeUnit h⟩
    rw [hcs, List.append_nil, decodeUtf8_encoded]
    rfl
  have hchar : charFromU32 unit = some (Char.ofNat unit) := charFromU32_eq_some.2 ⟨hvalid, rfl⟩
  refine orError_bind_eq_ok.2 ⟨0x75, hat.get, ?_⟩
  refine reject_bind_eq_ok.2 ⟨rfl, ?_⟩
  refine orError_bind_eq_ok.2 ⟨digits, hrange, ?_⟩
  refine reject_bind_eq_ok.2 ⟨hdecode, ?_⟩
  refine orError_bind_eq_ok.2 ⟨unit, hradix, ?_⟩
  exact orError_bind_eq_ok.2 ⟨_, hchar, rfl⟩

/-- Behind an escape the segment starts anew. -/
theorem stringFrom_escape {fuel segment next : ℕ} {front result : List Char} {c : Char}
    {p : List Char × ℕ} (hat : At bytes position (0x5c :: text))
    (hpushed : pushedText bytes segment position = .ok front)
    (hescape : escape bytes (position + 1) = .ok (c, next))
    (hmore : stringFrom bytes fuel next next (result ++ front ++ [c]) = .ok p) :
    stringFrom bytes (fuel + 1) segment position result = .ok p := by
  refine orError_bind_eq_ok.2 ⟨0x5c, hat.get, ?_⟩
  exact bind_eq_ok.2 ⟨front, hpushed, bind_eq_ok.2 ⟨(c, next), hescape, hmore⟩⟩

/-- The loop returns the contents of a string behind what it holds already. -/
theorem stringFrom_of_contents {units : List ℕ} (h : Contents accepted text units rest)
    {segment : ℕ} (fuel : ℕ) (front result : List Char)
    (hat : At bytes position text) (hsegment : segment ≤ position)
    (hpending : pending bytes segment position = front.flatMap String.utf8EncodeChar)
    (hfuel : text.length ≤ fuel) :
    ∃ cs next, stringFrom bytes fuel segment position result = .ok (result ++ cs, next) ∧
      cs.flatMap utf16 = front.flatMap utf16 ++ units ∧ At bytes next rest := by
  induction h generalizing fuel segment position front result with
  | @close rest =>
    obtain ⟨fuel, rfl⟩ := Nat.exists_eq_add_of_le' (Nat.lt_of_lt_of_le (Nat.succ_pos _) hfuel)
    refine ⟨front, position + 1, ?_, by simp, hat.next⟩
    refine orError_bind_eq_ok.2 ⟨0x22, hat.get, ?_⟩
    exact bind_eq_ok.2 ⟨front, pushedText_of_pending hsegment hat.1 hpending, rfl⟩
  | @piece text mid rest units more hpiece hmore ih =>
    have hpushed := pushedText_of_pending hsegment hat.1 hpending
    -- What follows an escape that ends at `next`.
    have hbehind : ∀ (fuel : ℕ) {next : ℕ} (c : Char), At bytes next mid → mid.length ≤ fuel →
        ∃ cs next', stringFrom bytes fuel next next (result ++ front ++ [c]) =
          .ok (result ++ (front ++ c :: cs), next') ∧ cs.flatMap utf16 = more ∧
          At bytes next' rest := by
      intro fuel next c hnext hfuel
      obtain ⟨cs, next', hloop, hunits, hend⟩ := ih fuel [] (result ++ front ++ [c]) hnext
        (Nat.le_refl next) (by simp [pending]) hfuel
      exact ⟨cs, next', by rw [hloop]; simp, by simpa using hunits, hend⟩
    cases hpiece with
    | @unescaped c _ hquote hslash hplain =>
      have hbytes : ∀ b ∈ String.utf8EncodeChar c, IsPlain b :=
        fun b hb => utf8EncodeChar_plain hquote hslash hplain hb
      have hnext : At bytes (position + (String.utf8EncodeChar c).length) mid := hat.append
      rw [List.length_append] at hfuel
      obtain ⟨fuel, rfl⟩ := Nat.exists_eq_add_of_le' (Nat.le_trans (Nat.le_add_right _ _) hfuel)
      have hpending' : pending bytes segment (position + (String.utf8EncodeChar c).length) =
          (front ++ [c]).flatMap String.utf8EncodeChar := by
        rw [pending_append hsegment hat, hpending]
        simp
      obtain ⟨cs, next, hloop, hunits, hend⟩ := ih fuel (front ++ [c]) result hnext
        (Nat.le_trans hsegment (Nat.le_add_right _ _)) hpending' (by omega)
      refine ⟨cs, next, (stringFrom_plain fuel hbytes hat).2 hloop, ?_, hend⟩
      rw [hunits, List.flatMap_append, List.append_assoc]
      simp
    | @escape letter unit _ hletter =>
      obtain ⟨c, hescape, hunit⟩ := escape_of_letter hletter hat.next
      obtain ⟨fuel, rfl⟩ := Nat.exists_eq_add_of_le' (Nat.lt_of_lt_of_le (Nat.succ_pos _) hfuel)
      obtain ⟨cs, next, hloop, hunits, hend⟩ := hbehind fuel c hat.next.next
        (by simp at hfuel; omega)
      refine ⟨front ++ c :: cs, next, stringFrom_escape hat hpushed hescape hloop, ?_, hend⟩
      rw [List.flatMap_append, List.flatMap_cons, hunit, hunits]
    | @code digits unit _ hcode =>
      obtain ⟨c, hescape, hunit⟩ := escape_of_code hcode hat.next
      have hlength := length_of_codeUnit hcode
      have hnext : At bytes (position + 1 + 5) mid := by
        have hdigits := hat.next.next.append
        rwa [hlength] at hdigits
      obtain ⟨fuel, rfl⟩ := Nat.exists_eq_add_of_le' (Nat.lt_of_lt_of_le (Nat.succ_pos _) hfuel)
      obtain ⟨cs, next, hloop, hunits, hend⟩ := hbehind fuel c hnext
        (by simp at hfuel; omega)
      refine ⟨front ++ c :: cs, next, stringFrom_escape hat hpushed hescape hloop, ?_, hend⟩
      rw [List.flatMap_append, List.flatMap_cons, hunit, hunits]

theorem string_of_contents {units : List ℕ} (h : Contents accepted text units rest)
    (hat : At bytes position (0x22 :: text)) :
    ∃ cs next, string bytes position = .ok (cs, next) ∧ cs.flatMap utf16 = units ∧
      At bytes next rest := by
  have hlength := hat.length
  rw [List.length_cons] at hlength
  obtain ⟨cs, next, hloop, hunits, hend⟩ := stringFrom_of_contents h
    (bytes.length + 1) [] [] hat.next (Nat.le_refl _) (by simp [pending]) (by omega)
  refine ⟨cs, next, reject_bind_eq_ok.2 ⟨?_, hloop⟩, hunits, hend⟩
  rw [hat.get]
  rfl

/-! ### Numbers -/

/-- The number ends here. -/
def Stops (rest : List UInt8) : Prop := ∀ b, rest.head? = some b → ¬ IsNumeric b

theorem stops_cons {b : UInt8} (h : ¬ IsNumeric b) : Stops (b :: rest) := by
  intro c hc
  cases hc
  exact h

theorem Stops.not_digit (h : Stops rest) : ∀ b, rest.head? = some b → ¬ IsDigit b :=
  fun b hb hdigit => h b hb (Or.inl hdigit)

theorem at_skipDigits (h : Run IsDigit text rest) (hrest : ∀ b, rest.head? = some b → ¬ IsDigit b)
    (hat : At bytes position text) : At bytes (skipWhile bytes isAsciiDigit position) rest := by
  have hend := hat.skipWhile isAsciiDigit
  rwa [dropWhile_of_run (fun _ hb => isAsciiDigit_iff.2 hb) h] at hend
  intro b hb
  rw [← Bool.not_eq_true, isAsciiDigit_iff]
  exact hrest b hb

theorem digits_of_digits (h : Digits text rest)
    (hrest : ∀ b, rest.head? = some b → ¬ IsDigit b) (hat : At bytes position text) :
    ∃ next, digits bytes position = .ok next ∧ At bytes next rest := by
  obtain ⟨b, text', rfl, hb, hrun⟩ := h
  refine ⟨_, reject_bind_eq_ok.2 ⟨?_, rfl⟩, at_skipDigits (hrun.cons hb) hrest hat⟩
  rw [skipWhile, hat.2, List.takeWhile_cons_of_pos (isAsciiDigit_iff.2 hb)]
  simp

theorem exponent_of {exp : List UInt8}
    (h : exp = rest ∨ ∃ e signed digits, exp = e :: signed ∧ (e = 0x65 ∨ e = 0x45) ∧
      (signed = digits ∨ signed = 0x2b :: digits ∨ signed = 0x2d :: digits) ∧ Digits digits rest)
    (hrest : Stops rest) (hat : At bytes position exp) :
    ∃ next, exponent bytes position = .ok next ∧ At bytes next rest := by
  unfold exponent
  rw [hat.get]
  rcases h with rfl | ⟨e, signed, digits, rfl, he, hsign, hdigits⟩
  · refine ⟨position, if_neg ?_, hat⟩
    rintro (hhead | hhead)
    · exact hrest _ hhead (by simp [IsNumeric])
    · exact hrest _ hhead (by simp [IsNumeric])
  · rw [if_pos (by simpa using he), hat.next.get]
    apply digits_of_digits hdigits hrest.not_digit
    rcases hsign with rfl | rfl | rfl
    · rw [if_neg]
      · exact hat.next
      · obtain ⟨b, more, rfl, hb, -⟩ := hdigits
        rintro (hhead | hhead) <;> cases hhead <;> exact absurd hb (by simp [IsDigit])
    · exact hat.next.next
    · exact hat.next.next

theorem fraction_of {frac exp : List UInt8}
    (h : frac = exp ∨ ∃ digits, frac = 0x2e :: digits ∧ Digits digits exp)
    (hexp : ∀ b, exp.head? = some b → ¬ IsDigit b ∧ b ≠ 0x2e) (hat : At bytes position frac) :
    ∃ next, fraction bytes position = .ok next ∧ At bytes next exp := by
  unfold fraction
  rw [hat.get]
  rcases h with rfl | ⟨digits, rfl, hdigits⟩
  · exact ⟨position, if_neg fun hhead => (hexp _ hhead).2 rfl, hat⟩
  · exact digits_of_digits hdigits (fun b hb => (hexp b hb).1) hat.next

theorem whole_of {start frac : List UInt8}
    (h : start = 0x30 :: frac ∨
      ∃ b more, start = b :: more ∧ (0x31 ≤ b ∧ b ≤ 0x39) ∧ Run IsDigit more frac)
    (hfrac : ∀ b, frac.head? = some b → ¬ IsDigit b) (hat : At bytes position start) :
    ∃ next, whole bytes position = .ok next ∧ At bytes next frac := by
  rcases h with rfl | ⟨b, more, rfl, hb, hrun⟩
  · exact ⟨_, orError_bind_eq_ok.2 ⟨_, hat.get, rfl⟩, hat.next⟩
  · have hdigit : IsDigit b := ⟨UInt8.le_trans (by decide) hb.1, hb.2⟩
    have hzero : b ≠ 0x30 := by
      rintro rfl
      exact absurd hb.1 (by decide)
    refine ⟨_, orError_bind_eq_ok.2 ⟨b, hat.get, ?_⟩, at_skipDigits hrun hfrac hat.next⟩
    refine reject_bind_eq_ok.2 ⟨by simp [isAsciiDigit_iff.2 hdigit], ?_⟩
    rw [if_neg hzero]
    rfl

theorem sign_of {start : List UInt8} (h : text = start ∨ text = 0x2d :: start)
    (hstart : start.head? ≠ some 0x2d) (hat : At bytes position text) :
    At bytes (sign bytes position) start := by
  unfold sign
  rw [hat.get]
  rcases h with rfl | rfl
  · rwa [if_neg hstart]
  · exact hat.next

theorem atomNumber_of_number (h : Number text rest) (hrest : Stops rest)
    (hat : At bytes position text) :
    ∃ next, atomNumber bytes position = .ok next ∧ At bytes next rest := by
  obtain ⟨hminus, hwhole, hfrac, hexp⟩ := h
  rename_i start frac exp
  have hexp' : ∀ b, exp.head? = some b → ¬ IsDigit b ∧ b ≠ 0x2e := by
    rcases hexp with rfl | ⟨e, signed, digits, rfl, rfl | rfl, -⟩
    · refine fun b hb => ⟨hrest.not_digit b hb, ?_⟩
      rintro rfl
      exact hrest _ hb (by simp [IsNumeric])
    all_goals
      intro b hb
      cases hb
      simp [IsDigit]
  have hfrac' : ∀ b, frac.head? = some b → ¬ IsDigit b := by
    rcases hfrac with rfl | ⟨digits, rfl, -⟩
    · exact fun b hb => (hexp' b hb).1
    · intro b hb
      cases hb
      simp [IsDigit]
  have hstart : start.head? ≠ some 0x2d := by
    rcases hwhole with rfl | ⟨b, more, rfl, hb, -⟩
    · simp
    · intro hhead
      cases hhead
      exact absurd hb.1 (by decide)
  obtain ⟨dot, hdot, hat'⟩ := whole_of hwhole hfrac' (sign_of hminus hstart hat)
  obtain ⟨mark, hmark, hat''⟩ := fraction_of hfrac hexp' hat'
  obtain ⟨next, hnext, hend⟩ := exponent_of hexp hrest hat''
  exact ⟨next, bind_eq_ok.2 ⟨dot, hdot, bind_eq_ok.2 ⟨mark, hmark, hnext⟩⟩, hend⟩

/-! ### White space -/

theorem dropWhile_white {start : List UInt8} (h : White accepted text start)
    (hstart : ∀ b, start.head? = some b → ¬ IsWhite accepted b) :
    text.dropWhile isAsciiWhitespace = start := by
  refine dropWhile_of_run (fun _ hb => isAsciiWhitespace_iff.2 hb) h fun b hb => ?_
  rw [← Bool.not_eq_true, isAsciiWhitespace_iff]
  exact hstart b hb

theorem at_start {start : List UInt8} (h : White accepted text start)
    (hstart : ∀ b, start.head? = some b → ¬ IsWhite accepted b) (hat : At bytes position text) :
    At bytes (whitespace bytes position) start :=
  dropWhile_white h hstart ▸ hat.skipWhile isAsciiWhitespace

theorem at_byte {b : UInt8} (h : White accepted text (b :: rest)) (hb : ¬ IsWhite accepted b)
    (hat : At bytes position text) : At bytes (whitespace bytes position) (b :: rest) := by
  refine at_start h (fun c hc => ?_) hat
  cases hc
  exact hb

theorem whitespace_whitespace (hat : At bytes position text) :
    whitespace bytes (whitespace bytes position) = whitespace bytes position := by
  have hend := hat.skipWhile isAsciiWhitespace
  have hnone : (text.dropWhile isAsciiWhitespace).takeWhile isAsciiWhitespace = [] := by
    rw [List.takeWhile_eq_nil_iff]
    intro hpos
    simpa using List.dropWhile_get_zero_not isAsciiWhitespace text hpos
  rw [whitespace, whitespace, skipWhile, hend.2, hnone]
  rfl

theorem stops_white (h : White accepted text rest) (hrest : Stops rest) : Stops text := by
  obtain ⟨front, rfl, hfront⟩ := h
  cases front with
  | nil => exact hrest
  | cons c front =>
    apply stops_cons
    rcases hfront c List.mem_cons_self with rfl | rfl | rfl | rfl | ⟨-, rfl⟩ <;>
      simp [IsNumeric, IsDigit]

theorem stops_nil : Stops [] := fun _ h => by cases h

theorem head_of_number (h : Number text rest) :
    ∃ b more, text = b :: more ∧ (b = 0x2d ∨ IsDigit b) := by
  obtain ⟨rfl | rfl, hwhole, -, -⟩ := h
  · rcases hwhole with rfl | ⟨b, more, rfl, hb, -⟩
    · exact ⟨_, _, rfl, Or.inr (by simp [IsDigit])⟩
    · exact ⟨b, more, rfl, Or.inr ⟨UInt8.le_trans (by decide) hb.1, hb.2⟩⟩
  · exact ⟨_, _, rfl, Or.inl rfl⟩

/-- A value starts with a byte that is neither white space nor the end of an array. -/
theorem head_of_value {tree : Tree} (h : Derives accepted (.value tree) text rest) :
    ∃ b more, text = b :: more ∧ ¬ IsWhite accepted b ∧ b ≠ 0x5d := by
  cases h with
  | number h =>
    obtain ⟨b, more, rfl, hb⟩ := head_of_number h
    refine ⟨b, more, rfl, ?_, ?_⟩
    · rintro (rfl | rfl | rfl | rfl | ⟨-, rfl⟩) <;> simp [IsDigit] at hb
    · rintro rfl
      simp [IsDigit] at hb
  | _ => exact ⟨_, _, rfl, by simp [IsWhite], by decide⟩

theorem not_white_of_value {tree : Tree} (h : Derives accepted (.value tree) text rest) :
    ∀ b, text.head? = some b → ¬ IsWhite accepted b := by
  obtain ⟨b, more, rfl, hb, -⟩ := head_of_value h
  intro c hc
  cases hc
  exact hb

/-! ### Values -/

/-- The parser reads this part of a text to its end. -/
def Reads (bytes : List UInt8) : Symbol → List UInt8 → List UInt8 → Prop
  | .value tree, start, rest => ∀ (fuel depth position), At bytes (whitespace bytes position) start →
      2 * (bytes.length - position) < fuel → tree.nesting + depth ≤ 17 → Stops rest →
      ∃ v next, value bytes fuel depth position = .ok (v, next) ∧ v.tree = tree ∧
        At bytes next rest
  | .items trees, text, rest => ∀ (fuel depth position read),
      At bytes (whitespace bytes position) (text.dropWhile isAsciiWhitespace) →
      2 * (bytes.length - position) + 1 < fuel → nestingItems trees + depth ≤ 16 →
      ∃ more next, values bytes fuel depth position read = .ok (.array (read ++ more), next) ∧
        valueTrees more = trees ∧ At bytes next rest
  | .members entries, text, rest => ∀ (fuel depth position read),
      At bytes (whitespace bytes position) (text.dropWhile isAsciiWhitespace) →
      2 * (bytes.length - position) + 1 < fuel → nestingMembers entries + depth ≤ 16 →
      ∃ more next, members bytes fuel depth position read = .ok (.object (read ++ more), next) ∧
        memberTrees more = entries ∧ At bytes next rest

/-- One byte more. -/
theorem exists_fuel {n fuel : ℕ} (h : n < fuel) : ∃ fuel', fuel = fuel' + 1 :=
  Nat.exists_eq_add_of_le' (Nat.lt_of_le_of_lt (Nat.zero_le n) h)

section Value

variable {fuel depth : ℕ} {start : List UInt8}

theorem At.le_of_whitespace (h : At bytes (whitespace bytes position) start) :
    position ≤ bytes.length :=
  Nat.le_trans (le_skipWhile isAsciiWhitespace) h.1

theorem lt_of_value {v : JsonValue} {next : ℕ} (h : value bytes fuel depth position = .ok (v, next))
    (hfuel : 2 * (bytes.length - position) < fuel) (hdepth : depth ≤ 17)
    (hle : position ≤ bytes.length) : position < next := by
  have hread := (turns fuel).value hfuel hdepth ⟨hle, rfl⟩
  rw [h] at hread
  obtain ⟨_, _, -, -, -, -, hlt⟩ := hread
  exact hlt

theorem lt_of_string {cs : List Char} {next : ℕ} (h : string bytes position = .ok (cs, next))
    (hle : position ≤ bytes.length) : position < next := by
  have hat : At bytes position (bytes.drop position) := ⟨hle, rfl⟩
  have hread := string_answers hat
  rw [h] at hread
  obtain ⟨_, _, -, -, -, hlt⟩ := hread
  exact hlt

theorem consume_of (literal : List UInt8) (hat : At bytes position (literal ++ rest)) :
    consume bytes literal position = .ok (.atom, position + literal.length) := by
  refine reject_bind_eq_ok.2 ⟨?_, rfl⟩
  rw [(getRange_eq_some hat).2 ⟨rest, rfl, rfl⟩]
  simp

/-- The three literal names. -/
theorem value_of_literal {b : UInt8} {more : List UInt8}
    (hb : b = 0x74 ∧ more = [0x72, 0x75, 0x65] ∨ b = 0x66 ∧ more = [0x61, 0x6c, 0x73, 0x65] ∨
      b = 0x6e ∧ more = [0x75, 0x6c, 0x6c])
    (hat : At bytes (whitespace bytes position) (b :: (more ++ rest))) :
    ∃ v next, value bytes (fuel + 1) depth position = .ok (v, next) ∧ v.tree = .atom ∧
      At bytes next rest := by
  refine ⟨.atom, whitespace bytes position + (b :: more).length, ?_, rfl, hat.append⟩
  rw [value]
  refine orError_bind_eq_ok.2 ⟨b, hat.get, ?_⟩
  have hconsume := consume_of (b :: more) hat
  rcases hb with ⟨rfl, rfl⟩ | ⟨rfl, rfl⟩ | ⟨rfl, rfl⟩ <;> simpa [isAsciiDigit] using hconsume

theorem value_of_number (h : Number start rest) (hrest : Stops rest)
    (hat : At bytes (whitespace bytes position) start) :
    ∃ v next, value bytes (fuel + 1) depth position = .ok (v, next) ∧ v.tree = .atom ∧
      At bytes next rest := by
  obtain ⟨next, hnumber, hend⟩ := atomNumber_of_number h hrest hat
  obtain ⟨b, more, rfl, hb⟩ := head_of_number h
  refine ⟨.atom, next, ?_, rfl, hend⟩
  rw [value]
  refine orError_bind_eq_ok.2 ⟨b, hat.get, ?_⟩
  have hne : b ≠ 0x7b ∧ b ≠ 0x5b ∧ b ≠ 0x22 := by
    rcases hb with rfl | hb
    · decide
    · refine ⟨?_, ?_, ?_⟩ <;> rintro rfl <;> simp [IsDigit] at hb
  rw [if_neg hne.1, if_neg hne.2.1, if_neg hne.2.2, if_pos (hb.imp_right isAsciiDigit_iff.2)]
  exact bind_eq_ok.2 ⟨next, hnumber, rfl⟩

theorem value_of_string {units : List ℕ} (h : Contents accepted text units rest)
    (hat : At bytes (whitespace bytes position) (0x22 :: text)) :
    ∃ v next, value bytes (fuel + 1) depth position = .ok (v, next) ∧ v.tree = .string units ∧
      At bytes next rest := by
  obtain ⟨cs, next, hstring, hunits, hend⟩ := string_of_contents h hat
  refine ⟨.string cs, next, ?_, congrArg Tree.string hunits, hend⟩
  rw [value]
  refine orError_bind_eq_ok.2 ⟨0x22, hat.get, ?_⟩
  exact bind_eq_ok.2 ⟨(cs, next), hstring, rfl⟩

/-- An array that is closed at once. -/
theorem value_of_emptyArray (h : White accepted text (0x5d :: rest)) (hdepth : depth ≤ 16)
    (hat : At bytes (whitespace bytes position) (0x5b :: text)) :
    ∃ v next, value bytes (fuel + 1) depth position = .ok (v, next) ∧ v.tree = .array [] ∧
      At bytes next rest := by
  have hclose := at_byte h (by simp [IsWhite]) hat.next
  refine ⟨.array [], _, ?_, rfl, hclose.next⟩
  rw [value]
  refine orError_bind_eq_ok.2 ⟨0x5b, hat.get, ?_⟩
  refine reject_bind_eq_ok.2 ⟨by simpa using hdepth, ?_⟩
  exact if_pos hclose.get

theorem value_of_emptyObject (h : White accepted text (0x7d :: rest)) (hdepth : depth ≤ 16)
    (hat : At bytes (whitespace bytes position) (0x7b :: text)) :
    ∃ v next, value bytes (fuel + 1) depth position = .ok (v, next) ∧ v.tree = .object [] ∧
      At bytes next rest := by
  have hclose := at_byte h (by simp [IsWhite]) hat.next
  refine ⟨.object [], _, ?_, rfl, hclose.next⟩
  rw [value]
  refine orError_bind_eq_ok.2 ⟨0x7b, hat.get, ?_⟩
  refine reject_bind_eq_ok.2 ⟨by simpa using hdepth, ?_⟩
  exact if_pos hclose.get

/-- Items start with a value. -/
theorem head_of_items {trees : List Tree} (h : Derives accepted (.items trees) text rest) :
    (text.dropWhile isAsciiWhitespace).head? ≠ some 0x5d := by
  obtain ⟨tree, start, after, hbefore, hvalue⟩ : ∃ tree start after, White accepted text start ∧
      Derives accepted (.value tree) start after := by
    cases h with
    | lastItem hbefore hvalue => exact ⟨_, _, _, hbefore, hvalue⟩
    | moreItems hbefore hvalue => exact ⟨_, _, _, hbefore, hvalue⟩
  rw [dropWhile_white hbefore (not_white_of_value hvalue)]
  obtain ⟨b, more, rfl, -, hb⟩ := head_of_value hvalue
  simpa using hb

theorem dropWhile_name {name : List UInt8} (h : White accepted text (0x22 :: name)) :
    text.dropWhile isAsciiWhitespace = 0x22 :: name :=
  dropWhile_white h fun b hb => by cases hb; simp [IsWhite]

theorem head_of_members {entries : List (List ℕ × Tree)}
    (h : Derives accepted (.members entries) text rest) :
    (text.dropWhile isAsciiWhitespace).head? ≠ some 0x7d := by
  obtain ⟨name, hbefore⟩ : ∃ name, White accepted text (0x22 :: name) := by
    cases h with
    | lastMember hbefore => exact ⟨_, hbefore⟩
    | moreMembers hbefore => exact ⟨_, hbefore⟩
  rw [dropWhile_name hbefore]
  simp

/-- Behind an opening bracket the white space is skipped, and then again by the loop. -/
theorem behind_bracket {b : UInt8} (hat : At bytes (whitespace bytes position) (b :: text))
    (hfuel : 2 * (bytes.length - position) < fuel + 1) :
    At bytes (whitespace bytes (whitespace bytes position + 1)) (text.dropWhile isAsciiWhitespace) ∧
      At bytes (whitespace bytes (whitespace bytes (whitespace bytes position + 1)))
        (text.dropWhile isAsciiWhitespace) ∧
      2 * (bytes.length - whitespace bytes (whitespace bytes position + 1)) + 1 < fuel := by
  have hle : position ≤ whitespace bytes position := le_skipWhile isAsciiWhitespace
  have hle' : whitespace bytes position + 1 ≤ whitespace bytes (whitespace bytes position + 1) :=
    le_skipWhile isAsciiWhitespace
  have hlength := hat.length
  rw [List.length_cons] at hlength
  have hafter : At bytes (whitespace bytes (whitespace bytes position + 1)) _ :=
    hat.next.skipWhile isAsciiWhitespace
  refine ⟨hafter, ?_, by omega⟩
  rwa [whitespace_whitespace hat.next]

theorem value_of_items {trees : List Tree} (h : Derives accepted (.items trees) text rest)
    (ih : Reads bytes (.items trees) text rest)
    (hfuel : 2 * (bytes.length - position) < fuel + 1) (hdepth : nestingItems trees + depth ≤ 16)
    (hat : At bytes (whitespace bytes position) (0x5b :: text)) :
    ∃ v next, value bytes (fuel + 1) depth position = .ok (v, next) ∧ v.tree = .array trees ∧
      At bytes next rest := by
  obtain ⟨hafter, hagain, hless⟩ := behind_bracket hat hfuel
  obtain ⟨more, next, hvalues, htrees, hend⟩ := ih fuel depth _ [] hagain hless hdepth
  refine ⟨.array more, next, ?_, congrArg Tree.array htrees, hend⟩
  rw [value]
  refine orError_bind_eq_ok.2 ⟨0x5b, hat.get, ?_⟩
  refine reject_bind_eq_ok.2 ⟨by simp; omega, ?_⟩
  dsimp only
  rw [if_neg]
  · exact hvalues
  · rw [hafter.get]
    exact head_of_items h

theorem value_of_members {entries : List (List ℕ × Tree)}
    (h : Derives accepted (.members entries) text rest)
    (ih : Reads bytes (.members entries) text rest)
    (hfuel : 2 * (bytes.length - position) < fuel + 1)
    (hdepth : nestingMembers entries + depth ≤ 16)
    (hat : At bytes (whitespace bytes position) (0x7b :: text)) :
    ∃ v next, value bytes (fuel + 1) depth position = .ok (v, next) ∧ v.tree = .object entries ∧
      At bytes next rest := by
  obtain ⟨hafter, hagain, hless⟩ := behind_bracket hat hfuel
  obtain ⟨more, next, hmembers, hentries, hend⟩ := ih fuel depth _ [] hagain hless hdepth
  refine ⟨.object more, next, ?_, congrArg Tree.object hentries, hend⟩
  rw [value]
  refine orError_bind_eq_ok.2 ⟨0x7b, hat.get, ?_⟩
  refine reject_bind_eq_ok.2 ⟨by simp; omega, ?_⟩
  dsimp only
  rw [if_neg]
  · exact hmembers
  · rw [hafter.get]
    exact head_of_members h

/-- A part of an array or object, up to the byte behind it that is neither white space nor one of a
number. -/
theorem deeper_value (fuel depth : ℕ) {after : List UInt8} {tree : Tree} {b : UInt8}
    (ih : Reads bytes (.value tree) start after) (hafter : White accepted after (b :: rest))
    (hb : ¬ IsWhite accepted b ∧ ¬ IsNumeric b) (hat : At bytes (whitespace bytes position) start)
    (hfuel : 2 * (bytes.length - position) < fuel) (hdepth : tree.nesting + depth ≤ 16) :
    ∃ v behind, value bytes fuel (deeper depth) position = .ok (v, behind) ∧ v.tree = tree ∧
      At bytes (whitespace bytes behind) (b :: rest) ∧ position < whitespace bytes behind := by
  obtain ⟨v, behind, hread, htree, hend⟩ :=
    ih fuel (depth + 1) position hat hfuel (by omega) (stops_white hafter (stops_cons hb.2))
  rw [deeper_eq (by omega)]
  have hlt := lt_of_value hread hfuel (by omega) hat.le_of_whitespace
  exact ⟨v, behind, hread, htree, at_byte hafter hb.1 hend,
    Nat.lt_of_lt_of_le hlt (le_skipWhile isAsciiWhitespace)⟩

/-- A key, the colon behind it and the value. -/
theorem member_of (fuel depth : ℕ) {name colon after : List UInt8} {key : List ℕ} {tree : Tree}
    {b : UInt8}
    (hname : Contents accepted name key colon) (hcolon : White accepted colon (0x3a :: text))
    (hbefore : White accepted text start) (hvalue : Derives accepted (.value tree) start after)
    (ih : Reads bytes (.value tree) start after) (hafter : White accepted after (b :: rest))
    (hb : ¬ IsWhite accepted b ∧ ¬ IsNumeric b)
    (hat : At bytes (whitespace bytes position) (0x22 :: name))
    (hfuel : 2 * (bytes.length - position) < fuel) (hdepth : tree.nesting + depth ≤ 16) :
    ∃ cs past v behind, string bytes (whitespace bytes position) = .ok (cs, past) ∧
      bytes[whitespace bytes past]? = some 0x3a ∧
      value bytes fuel (deeper depth) (whitespace bytes past + 1) = .ok (v, behind) ∧
      cs.flatMap utf16 = key ∧ v.tree = tree ∧ At bytes (whitespace bytes behind) (b :: rest) ∧
      position < whitespace bytes behind := by
  obtain ⟨cs, past, hstring, hkey, hpast⟩ := string_of_contents hname hat
  have hat' := at_byte hcolon (by simp [IsWhite]) hpast
  have hlt := lt_of_string hstring hat.1
  have hle : position ≤ whitespace bytes position := le_skipWhile isAsciiWhitespace
  have hle' : past ≤ whitespace bytes past := le_skipWhile isAsciiWhitespace
  obtain ⟨v, behind, hread, htree, hend, hforth⟩ := deeper_value fuel depth ih hafter hb
    (at_start hbefore (not_white_of_value hvalue) hat'.next) (by omega) hdepth
  exact ⟨cs, past, v, behind, hstring, hat'.get, hread, hkey, htree, hend, by omega⟩

end Value

/-- Every part of a text is read to its end. -/
theorem reads_of_derives {symbol : Symbol} (h : Derives accepted symbol text rest) :
    Reads bytes symbol text rest := by
  induction h with
  | null =>
    intro fuel depth position hat hfuel _ _
    obtain ⟨fuel, rfl⟩ := exists_fuel hfuel
    exact value_of_literal (Or.inr (Or.inr ⟨rfl, rfl⟩)) hat
  | true =>
    intro fuel depth position hat hfuel _ _
    obtain ⟨fuel, rfl⟩ := exists_fuel hfuel
    exact value_of_literal (Or.inl ⟨rfl, rfl⟩) hat
  | false =>
    intro fuel depth position hat hfuel _ _
    obtain ⟨fuel, rfl⟩ := exists_fuel hfuel
    exact value_of_literal (Or.inr (Or.inl ⟨rfl, rfl⟩)) hat
  | number h =>
    intro fuel depth position hat hfuel _ hrest
    obtain ⟨fuel, rfl⟩ := exists_fuel hfuel
    exact value_of_number h hrest hat
  | string h =>
    intro fuel depth position hat hfuel _ _
    obtain ⟨fuel, rfl⟩ := exists_fuel hfuel
    exact value_of_string h hat
  | emptyArray h =>
    intro fuel depth position hat hfuel hdepth _
    obtain ⟨fuel, rfl⟩ := exists_fuel hfuel
    simp only [Tree.nesting, nestingItems] at hdepth
    exact value_of_emptyArray h (by omega) hat
  | array h ih =>
    intro fuel depth position hat hfuel hdepth _
    obtain ⟨fuel, rfl⟩ := exists_fuel hfuel
    rw [Tree.nesting] at hdepth
    exact value_of_items h ih hfuel (by omega) hat
  | emptyObject h =>
    intro fuel depth position hat hfuel hdepth _
    obtain ⟨fuel, rfl⟩ := exists_fuel hfuel
    simp only [Tree.nesting, nestingMembers] at hdepth
    exact value_of_emptyObject h (by omega) hat
  | object h ih =>
    intro fuel depth position hat hfuel hdepth _
    obtain ⟨fuel, rfl⟩ := exists_fuel hfuel
    rw [Tree.nesting] at hdepth
    exact value_of_members h ih hfuel (by omega) hat
  | lastItem hbefore hvalue hafter ih =>
    intro fuel depth position read hat hfuel hdepth
    obtain ⟨fuel, rfl⟩ := exists_fuel hfuel
    -- the value itself skips the white space in front of it
    rw [dropWhile_white hbefore (not_white_of_value hvalue)] at hat
    simp only [nestingItems] at hdepth
    obtain ⟨v, behind, hread, htree, hend, hforth⟩ := deeper_value fuel depth ih hafter
      (by simp [IsWhite, IsNumeric, IsDigit]) hat (by omega) (by omega)
    refine ⟨[v], whitespace bytes behind + 1, ?_, by rw [valueTrees, htree]; rfl, hend.next⟩
    rw [values]
    refine bind_eq_ok.2 ⟨(v, behind), hread, ?_⟩
    dsimp only
    rw [hend.get, List.head?_cons, if_neg (by simp), if_pos rfl]
    rfl
  | moreItems hbefore hvalue hafter hmore ih ih' =>
    intro fuel depth position read hat hfuel hdepth
    obtain ⟨fuel, rfl⟩ := exists_fuel hfuel
    rw [dropWhile_white hbefore (not_white_of_value hvalue)] at hat
    simp only [nestingItems] at hdepth
    obtain ⟨v, behind, hread, htree, hend, hforth⟩ := deeper_value fuel depth ih hafter
      (by simp [IsWhite, IsNumeric, IsDigit]) hat (by omega) (by omega)
    have hlength := hend.length
    rw [List.length_cons] at hlength
    -- behind the comma the loop goes on with this item read
    obtain ⟨more, next, hvalues, htrees, hrest⟩ := ih' fuel depth (whitespace bytes behind + 1)
      (read ++ [v]) (hend.next.skipWhile isAsciiWhitespace) (by omega) (by omega)
    refine ⟨v :: more, next, ?_, by rw [valueTrees, htree, htrees], hrest⟩
    rw [values]
    refine bind_eq_ok.2 ⟨(v, behind), hread, ?_⟩
    dsimp only
    rw [hend.get, List.head?_cons, if_pos rfl, hvalues, List.append_assoc]
    rfl
  | lastMember hbefore hname hcolon hbefore' hvalue hafter ih =>
    intro fuel depth position read hat hfuel hdepth
    obtain ⟨fuel, rfl⟩ := exists_fuel hfuel
    rw [dropWhile_name hbefore] at hat
    simp only [nestingMembers] at hdepth
    obtain ⟨cs, past, v, behind, hstring, hsep, hread, hkey, htree, hend, hforth⟩ := member_of
      fuel depth hname hcolon hbefore' hvalue ih hafter (by simp [IsWhite, IsNumeric, IsDigit]) hat
      (by omega) (by omega)
    refine ⟨[(cs, v)], whitespace bytes behind + 1, ?_, ?_, hend.next⟩
    · rw [members]
      refine bind_eq_ok.2 ⟨(cs, past), hstring, ?_⟩
      refine reject_bind_eq_ok.2 ⟨by rw [hsep]; rfl, ?_⟩
      refine bind_eq_ok.2 ⟨(v, behind), hread, ?_⟩
      dsimp only
      rw [hend.get, List.head?_cons, if_neg (by simp), if_pos rfl]
      rfl
    · rw [memberTrees, hkey, htree]
      rfl
  | moreMembers hbefore hname hcolon hbefore' hvalue hafter hmore ih ih' =>
    intro fuel depth position read hat hfuel hdepth
    obtain ⟨fuel, rfl⟩ := exists_fuel hfuel
    rw [dropWhile_name hbefore] at hat
    simp only [nestingMembers] at hdepth
    obtain ⟨cs, past, v, behind, hstring, hsep, hread, hkey, htree, hend, hforth⟩ := member_of
      fuel depth hname hcolon hbefore' hvalue ih hafter (by simp [IsWhite, IsNumeric, IsDigit]) hat
      (by omega) (by omega)
    have hlength := hend.length
    rw [List.length_cons] at hlength
    obtain ⟨more, next, hmembers, hentries, hrest⟩ := ih' fuel depth (whitespace bytes behind + 1)
      (read ++ [(cs, v)]) (hend.next.skipWhile isAsciiWhitespace) (by omega) (by omega)
    refine ⟨(cs, v) :: more, next, ?_, by rw [memberTrees, hkey, htree, hentries], hrest⟩
    rw [members]
    refine bind_eq_ok.2 ⟨(cs, past), hstring, ?_⟩
    refine reject_bind_eq_ok.2 ⟨by rw [hsep]; rfl, ?_⟩
    refine bind_eq_ok.2 ⟨(v, behind), hread, ?_⟩
    dsimp only
    rw [hend.get, List.head?_cons, if_pos rfl, hmembers, List.append_assoc]
    rfl

/-! ### Whole texts -/

/-- A text of the dialect that is not nested too deep is accepted, as what it stands for. -/
theorem parse_of_text {tree : Tree} (h : JsonDialect.Text accepted bytes tree)
    (hnesting : tree.nesting ≤ 16) : ∃ document, parse bytes = .ok document ∧
      document.tree = tree := by
  obtain ⟨cs, hutf8⟩ := h.encoded
  obtain ⟨start, after, hbefore, hvalue, hafter⟩ := h
  have hat : At bytes 0 bytes := ⟨Nat.zero_le _, rfl⟩
  obtain ⟨v, next, hread, htree, hend⟩ := reads_of_derives hvalue (2 * bytes.length + 1) 1 0
    (at_start hbefore (not_white_of_value hvalue) hat) (by omega) (by omega)
    (stops_white hafter stops_nil)
  have hwhole := at_start hafter (fun _ hb => by cases hb) hend
  have hlength := hwhole.length
  refine ⟨v, ?_, htree⟩
  refine reject_bind_eq_ok.2 ⟨?_, bind_eq_ok.2 ⟨(v, next), hread, ?_⟩⟩
  · rw [hutf8, decodeUtf8_encoded]
    rfl
  · refine reject_bind_eq_ok.2 ⟨?_, rfl⟩
    simpa using hlength

/-- What is accepted, and as what. -/
theorem parse_eq_ok_iff {tree : Tree} :
    (∃ document, parse bytes = .ok document ∧ document.tree = tree) ↔
      JsonDialect.Text accepted bytes tree ∧ tree.nesting ≤ 16 := by
  constructor
  · rintro ⟨document, hparse, rfl⟩
    have hread := parse_answers bytes
    rw [hparse] at hread
    exact hread
  · rintro ⟨htext, hnesting⟩
    exact parse_of_text htext hnesting

/-- The parser takes this input as RFC 8259 has it: what is accepted are the texts of the RFC nested
at most 16 deep, and what is returned stands for what the RFC says; no slice is out of range, and
the calls end. -/
structure Conforms (bytes : List UInt8) : Prop where
  reads : ∀ tree, (∃ document, parse bytes = .ok document ∧ document.tree = tree) ↔
    JsonDialect.Text rfc8259 bytes tree ∧ tree.nesting ≤ 16
  inRange : parse bytes ≠ .error .panicked
  ends : parse bytes ≠ .error .exhausted

/-- A text in some dialect that is not nested too deep. -/
def IsText (bytes : List UInt8) : Prop :=
  ∃ tree, JsonDialect.Text lenient bytes tree ∧ tree.nesting ≤ 16

theorem text_accepted_iff {tree : Tree} : JsonDialect.Text accepted bytes tree ↔
    JsonDialect.Text lenient bytes tree ∧ hasSurrogate bytes = false := by
  rw [text_iff_permitted, permitted_iff]
  simp [accepted]

theorem text_rfc8259_iff {tree : Tree} : JsonDialect.Text rfc8259 bytes tree ↔
    JsonDialect.Text lenient bytes tree ∧ hasFormFeed bytes = false ∧ hasPlus bytes = false := by
  rw [text_iff_permitted, permitted_iff]
  simp [rfc8259]

theorem parse_ne_error {stop : Stop} (h : stop ≠ .refused) : parse bytes ≠ .error stop := by
  intro hparse
  have hanswers := parse_answers bytes
  rw [hparse] at hanswers
  exact h hanswers

/-- The parser conforms on every input that is no such text.  On one that is, it does when a form
feed outside the strings or a sign in an escape, which it admits, occurs just when half of a
surrogate pair does, which it does not. -/
theorem conforms_iff (bytes : List UInt8) :
    Conforms bytes ↔
      (IsText bytes →
        ((hasFormFeed bytes = true ∨ hasPlus bytes = true) ↔ hasSurrogate bytes = true)) := by
  constructor
  · rintro ⟨hreads, -, -⟩ ⟨tree, hlenient, hnesting⟩
    have htree := hreads tree
    rw [parse_eq_ok_iff, text_accepted_iff, text_rfc8259_iff] at htree
    simp only [hlenient, hnesting, true_and, and_true] at htree
    rw [← Bool.not_eq_false (hasSurrogate bytes), htree]
    cases hasFormFeed bytes <;> cases hasPlus bytes <;> simp
  · intro h
    refine ⟨fun tree => ?_, parse_ne_error (by decide), parse_ne_error (by decide)⟩
    rw [parse_eq_ok_iff, text_accepted_iff, text_rfc8259_iff]
    constructor
    · rintro ⟨⟨hlenient, hsurrogate⟩, hnesting⟩
      have hmarks := h ⟨tree, hlenient, hnesting⟩
      rw [hsurrogate] at hmarks
      simp only [Bool.false_eq_true, iff_false, not_or, Bool.not_eq_true] at hmarks
      exact ⟨⟨hlenient, hmarks⟩, hnesting⟩
    · rintro ⟨⟨hlenient, hfeed, hplus⟩, hnesting⟩
      have hmarks := h ⟨tree, hlenient, hnesting⟩
      rw [hfeed, hplus] at hmarks
      exact ⟨⟨hlenient, by simpa using hmarks⟩, hnesting⟩

/-- The two escapes that stand for a character above the sixteen-bit ones. -/
def pair : List UInt8 :=
  [0x22, 0x5c, 0x75, 0x64, 0x38, 0x33, 0x64, 0x5c, 0x75, 0x64, 0x65, 0x30, 0x30, 0x22]

theorem text_pair : JsonDialect.Text rfc8259 pair (.string (utf16 '😀')) := by
  refine ⟨pair, [], .refl _, .string ?_, .refl _⟩
  have hunits : utf16 '😀' = [0xd83d] ++ ([0xde00] ++ []) := by decide
  have hfirst : codeUnit rfc8259 [0x64, 0x38, 0x33, 0x64] = some 0xd83d := by decide
  have hsecond : codeUnit rfc8259 [0x64, 0x65, 0x30, 0x30] = some 0xde00 := by decide
  rw [hunits]
  exact .piece (.code hfirst)
    (.piece (.code hsecond) .close)

/-- The parser refuses the escapes of a surrogate pair. -/
theorem not_conforms_pair : ¬ Conforms pair ∧
    JsonDialect.Text rfc8259 pair (.string (utf16 '😀')) ∧
      ∀ document, parse pair ≠ .ok document := by
  have hrefused : ∀ document, parse pair ≠ .ok document := by
    intro document hparse
    have htext := (parse_eq_ok_iff.1 ⟨document, hparse, rfl⟩).1
    have hsurrogate := (text_accepted_iff.1 htext).2
    exact absurd hsurrogate (by decide)
  refine ⟨fun h => ?_, text_pair, hrefused⟩
  obtain ⟨document, hparse, -⟩ := (h.reads _).2 ⟨text_pair, Nat.zero_le _⟩
  exact hrefused document hparse

end MsgRiver.PhaseZero.JsonParser
