import MsgRiver.Lib.Text

/-!
# Lines before a blank line

A message of an HTTP-like protocol: lines that end in CR LF, a blank line, and a body.  `Frames`
says what a reader finds that cuts at the first blank line and splits what is before it; it is
determined by the bytes (`Frames.unique`).  Lines that are not empty and hold neither CR nor LF are
found as they were written, whatever the body is (`frames_write`).
-/

namespace Lines

open Ascii Text

/-- A line break. -/
def crLf : List UInt8 := [0x0d, 0x0a]

/-- A line break and an empty line. -/
def blank : List UInt8 := [0x0d, 0x0a, 0x0d, 0x0a]

/-- The head before the first blank line splits into the lines, and the body is what follows. -/
def Frames (bytes : List UInt8) (lines : List String) (body : List UInt8) : Prop :=
  ∃ head text, bytes = head ++ (blank ++ body) ∧ position blank bytes = some head.length ∧
    decodeUtf8 head = some text ∧ splitCrLf text = lines.map String.toList

theorem Frames.unique {bytes body body' : List UInt8} {lines lines' : List String}
    (h : Frames bytes lines body) (h' : Frames bytes lines' body') :
    lines = lines' ∧ body = body' := by
  obtain ⟨head, text, hbytes, hposition, hdecode, hsplit⟩ := h
  obtain ⟨head', text', hbytes', hposition', hdecode', hsplit'⟩ := h'
  rw [hposition] at hposition'
  obtain ⟨rfl, htail⟩ := List.append_inj (hbytes.symm.trans hbytes')
    (Option.some.inj hposition')
  rw [hdecode] at hdecode'
  obtain rfl := Option.some.inj hdecode'
  refine ⟨?_, List.append_cancel_left htail⟩
  exact List.map_inj_right (fun _ _ => String.toList_inj.1) |>.1 (hsplit.symm.trans hsplit')

/-! ### Texts without line breaks -/

/-- A text with neither CR nor LF. -/
def Unbroken (s : String) : Prop := '\r' ∉ s.toList ∧ '\n' ∉ s.toList

instance : DecidablePred Unbroken := fun s =>
  inferInstanceAs (Decidable ('\r' ∉ s.toList ∧ '\n' ∉ s.toList))

theorem unbroken_append {s t : String} (hs : Unbroken s) (ht : Unbroken t) : Unbroken (s ++ t) := by
  unfold Unbroken
  rw [String.toList_append, List.mem_append, List.mem_append]
  exact ⟨not_or.2 ⟨hs.1, ht.1⟩, not_or.2 ⟨hs.2, ht.2⟩⟩

/-- A text whose bytes pass a check that CR and LF do not pass. -/
theorem unbroken_of_all {p : UInt8 → Bool} {s : String} (h : (utf8Bytes s).all p = true)
    (hcr : p 0x0d = false) (hlf : p 0x0a = false) : Unbroken s := by
  have hpass : ∀ c ∈ s.toList, c.toNat < 128 → p (UInt8.ofNat c.toNat) = true :=
    fun c hc hascii => List.all_eq_true.1 h _ (mem_utf8Bytes_of_ascii hc hascii)
  constructor
  · intro hmem
    have htrue := hpass '\r' hmem (by decide)
    rw [show UInt8.ofNat '\r'.toNat = 0x0d from rfl, hcr] at htrue
    cases htrue
  · intro hmem
    have htrue := hpass '\n' hmem (by decide)
    rw [show UInt8.ofNat '\n'.toNat = 0x0a from rfl, hlf] at htrue
    cases htrue

theorem unbroken_toString (n : ℕ) : Unbroken (toString n) := by
  rw [Nat.toString_eq_ofList_toDigits, Unbroken, String.toList_ofList]
  constructor
  · intro hmem
    exact absurd (isDigit_toDigits hmem) (by decide)
  · intro hmem
    exact absurd (isDigit_toDigits hmem) (by decide)

/-! ### Writing -/

/-- A line as it is written: not empty and unbroken. -/
structure Line (line : String) : Prop where
  ne_empty : line ≠ ""
  unbroken : Unbroken line

theorem Line.append {s t : String} (hs : Line s) (ht : Unbroken t) : Line (s ++ t) := by
  refine ⟨fun hempty => hs.ne_empty ?_, unbroken_append hs.unbroken ht⟩
  have hlist := congrArg String.toList hempty
  rw [String.toList_append] at hlist
  exact String.toList_eq_nil_iff.1 (List.append_eq_nil_iff.1 hlist).1

/-- The lines behind the first one. -/
def later (lines : List String) : String :=
  lines.foldr (fun line rest => "\r\n" ++ (line ++ rest)) ""

/-- The lines with CR LF between them. -/
def join (line : String) (lines : List String) : String := line ++ later lines

theorem join_append (line : String) (lines lines' : List String) :
    join line (lines ++ lines') = join line lines ++ later lines' := by
  have hlater : later (lines ++ lines') = later lines ++ later lines' := by
    induction lines with
    | nil => rfl
    | cons next lines ih =>
      simp only [later, List.cons_append, List.foldr_cons] at ih ⊢
      rw [ih, String.append_assoc, String.append_assoc]
  rw [join, join, hlater, String.append_assoc]

theorem splitCrLf_join {line : String} {lines : List String} (hline : Line line)
    (hlines : ∀ next ∈ lines, Line next) :
    splitCrLf (join line lines).toList = (line :: lines).map String.toList := by
  induction lines generalizing line with
  | nil =>
    rw [join, later, List.foldr_nil, String.append_empty, splitCrLf_of_notMem hline.unbroken.1]
    rfl
  | cons next lines ih =>
    have htext : (join line (next :: lines)).toList =
        line.toList ++ '\r' :: '\n' :: (join next lines).toList := by
      rw [join, later, List.foldr_cons, String.toList_append, String.toList_append]
      rfl
    rw [htext, splitCrLf_line hline.unbroken.1,
      ih (hlines next List.mem_cons_self) fun l hl => hlines l (List.mem_cons_of_mem _ hl)]
    rfl

theorem notMem_utf8Bytes {s : String} (h : Unbroken s) : (0x0d : UInt8) ∉ utf8Bytes s :=
  fun hmem => h.1 (mem_of_mem_utf8Bytes hmem (by decide))

/-- No blank line starts in a line and the line break before it. -/
theorem clears_line {line : String} (h : Line line) :
    Clears blank (crLf ++ utf8Bytes line) := by
  obtain ⟨first, bytes, hbytes⟩ : ∃ first bytes, utf8Bytes line = first :: bytes := by
    refine List.exists_cons_of_ne_nil fun hnil => h.ne_empty ?_
    have hlength := congrArg List.length hnil
    rw [length_utf8Bytes] at hlength
    exact String.utf8ByteSize_eq_zero_iff.1 hlength
  have hnone := notMem_utf8Bytes h.unbroken
  have hfirst : first ≠ 0x0d := by
    rintro rfl
    exact hnone (hbytes ▸ List.mem_cons_self)
  intro j hj
  match j with
  | 0 =>
    -- the third byte of a blank line is a CR
    rw [hbytes]
    constructor
    · intro hpre
      have hsecond := (List.cons_prefix_cons.1 hpre).2
      have hthird := (List.cons_prefix_cons.1 hsecond).2
      exact hfirst (List.cons_prefix_cons.1 hthird).1.symm
    · intro hpre
      have hsecond := (List.cons_prefix_cons.1 hpre).2
      have hthird := (List.cons_prefix_cons.1 hsecond).2
      exact hfirst (List.cons_prefix_cons.1 hthird).1
  | 1 =>
    constructor
    · intro hpre
      cases (List.cons_prefix_cons.1 hpre).1
    · intro hpre
      cases (List.cons_prefix_cons.1 hpre).1
  | j + 2 => exact clears_of_notMem hnone j (by simpa [crLf] using hj)

theorem clears_later {lines : List String} (hlines : ∀ line ∈ lines, Line line) :
    Clears blank (utf8Bytes (later lines)) := by
  induction lines with
  | nil =>
    intro j hj
    exact absurd hj (Nat.not_lt_zero j)
  | cons line lines ih =>
    have hbytes : utf8Bytes (later (line :: lines)) =
        (crLf ++ utf8Bytes line) ++ utf8Bytes (later lines) := by
      rw [later, List.foldr_cons, utf8Bytes_append, utf8Bytes_append, List.append_assoc]
      rfl
    rw [hbytes]
    exact (clears_line (hlines line List.mem_cons_self)).append
      (ih fun next hnext => hlines next (List.mem_cons_of_mem _ hnext))

/-- **Lines are found as they were written**, whatever the body is. -/
theorem frames_write {line : String} {lines : List String} (hline : Line line)
    (hlines : ∀ next ∈ lines, Line next) (body : List UInt8) :
    Frames (utf8Bytes (join line lines) ++ (blank ++ body)) (line :: lines) body := by
  refine ⟨_, _, rfl, ?_, decodeUtf8_utf8Bytes _, splitCrLf_join hline hlines⟩
  have hclears : Clears blank (utf8Bytes (join line lines)) := by
    rw [join, utf8Bytes_append]
    exact (clears_of_notMem (notMem_utf8Bytes hline.unbroken)).append (clears_later hlines)
  have hblank : position blank (blank ++ body) = some 0 :=
    position_eq_some_iff.2 ⟨by omega, List.prefix_append _ _, by omega⟩
  rw [position_append_left hclears, hblank]
  simp

end Lines
