import MsgRiver.Lib.Bytes
import MsgRiver.Lib.Result

/-!
# Bounded writers and readers

A bounded writer appends fields to a buffer of limited size: `written limit fields` is their
concatenation, when it fits.  A `Reader` consumes a byte string from the front.  Both stop with the
error `refusal` of their error type.

`Parses r bs a` says that the reader consumes exactly `bs`, whatever follows, and answers `a`.  Each
primitive has its rule and `Parses.bind` composes them, so the value that a whole decoder answers is
read off by following its steps.
-/

namespace Wire

open Bytes

/-- The error of a writer that is full and of a reader that does not find what it expects. -/
class Refusal (ε : Type) where
  refusal : ε

/-- The refusal. -/
def refuse {ε α : Type} [Refusal ε] : Except ε α := .error Refusal.refusal

variable {ε α β : Type}

/-! ### Writers -/

section Writing

variable [Refusal ε]

/-- Append one field to a buffer. -/
def extend (limit : ℕ) (bytes field : List UInt8) : Except ε (List UInt8) :=
  if bytes.length + field.length ≤ limit then .ok (bytes ++ field) else refuse

/-- Append the fields to an empty buffer. -/
def written (limit : ℕ) (fields : List (List UInt8)) : Except ε (List UInt8) :=
  fields.foldlM (extend limit) []

theorem foldlM_extend {limit : ℕ} (fields : List (List UInt8)) {bytes : List UInt8}
    (hle : bytes.length ≤ limit) :
    fields.foldlM (extend limit) bytes =
      (extend limit bytes fields.flatten : Except ε (List UInt8)) := by
  induction fields generalizing bytes with
  | nil =>
    rw [List.flatten_nil, extend, List.length_nil, Nat.add_zero, if_pos hle, List.append_nil]
    rfl
  | cons field fields ih =>
    rw [List.foldlM_cons, List.flatten_cons]
    by_cases hfit : bytes.length + field.length ≤ limit
    · have hlen : (bytes ++ field).length ≤ limit := by rw [List.length_append]; exact hfit
      rw [extend, if_pos hfit]
      show List.foldlM (extend limit) (bytes ++ field) fields = _
      rw [ih hlen, extend, extend, List.append_assoc]
      simp only [List.length_append, Nat.add_assoc]
    · rw [extend, if_neg hfit, extend, if_neg (by rw [List.length_append]; omega)]
      rfl

/-- A writer succeeds exactly when the fields fit, and leaves their concatenation. -/
theorem written_eq_ok {limit : ℕ} {fields : List (List UInt8)} {bytes : List UInt8} :
    (written limit fields : Except ε (List UInt8)) = .ok bytes ↔
      fields.flatten = bytes ∧ fields.flatten.length ≤ limit := by
  rw [written, foldlM_extend fields (Nat.zero_le _), extend, List.length_nil, Nat.zero_add,
    List.nil_append]
  by_cases hfit : fields.flatten.length ≤ limit
  · rw [if_pos hfit, Except.ok.injEq]
    exact ⟨fun h => ⟨h, hfit⟩, fun h => h.1⟩
  · rw [if_neg hfit]
    exact ⟨fun h => (nomatch h), fun h => absurd h.2 hfit⟩

end Writing

/-! ### Readers -/

/-- A computation that reads. -/
abbrev Reader (ε α : Type) := StateT (List UInt8) (Except ε) α

section Reading

variable [Refusal ε]

/-- Consume `n` bytes. -/
def take (n : ℕ) : Reader ε (List UInt8) := fun s =>
  if n ≤ s.length then .ok (s.take n, s.drop n) else refuse

/-- Consume an integer. -/
def int [FixedWidth α] : Reader ε α := do
  let bs ← take (FixedWidth.width α)
  return unwire bs

/-- Consume an array of `n` bytes. -/
def array (n : ℕ) : Reader ε (ByteVec n) := fun s =>
  if h : n ≤ s.length then .ok (⟨s.take n, by rw [List.length_take]; omega⟩, s.drop n) else refuse

/-- Go on only when the condition holds. -/
def require (ok : Bool) : Reader ε Unit := fun s => if ok then .ok ((), s) else refuse

/-- Consume all that is left. -/
def remaining : Reader ε (List UInt8) := fun s => .ok (s, [])

/-- Consume nothing and refuse. -/
def fail : Reader ε α := fun _ => refuse

/-- An optional value behind a presence byte. -/
def optional (r : Reader ε α) : Reader ε (Option α) := do
  let present : UInt8 ← int
  if present = 0 then return none
  else if present = 1 then do
    let value ← r
    return some value
  else fail

/-- The bytes that `optional` reads. -/
def optionalBytes (w : α → List UInt8) : Option α → List UInt8
  | none => wire (0 : UInt8)
  | some value => wire (1 : UInt8) ++ w value

/-- Read a whole byte string. -/
def readAll (r : Reader ε α) (bs : List UInt8) : Except ε α :=
  match r bs with
  | .ok (a, []) => .ok a
  | .ok (_, _ :: _) => refuse
  | .error e => .error e

/-- The reader consumes exactly `bs` and answers `a`. -/
def Parses (r : Reader ε α) (bs : List UInt8) (a : α) : Prop :=
  ∀ rest, r (bs ++ rest) = .ok (a, rest)

omit [Refusal ε] in
theorem parses_pure (a : α) : Parses (pure a : Reader ε α) [] a := fun _ => rfl

theorem parses_take {n : ℕ} {bs : List UInt8} (h : bs.length = n) :
    Parses (take n : Reader ε (List UInt8)) bs bs := by
  intro rest
  subst h
  unfold take
  rw [if_pos (by rw [List.length_append]; omega), List.take_left, List.drop_left]

theorem parses_int [FixedWidth α] (x : α) : Parses (int : Reader ε α) (wire x) x := by
  intro rest
  show ((take (FixedWidth.width α) : Reader ε (List UInt8)) (wire x ++ rest) >>= _) = _
  rw [parses_take (length_wire x) rest]
  show Except.ok (unwire (wire x), rest) = _
  rw [unwire_wire]

theorem parses_array {n : ℕ} (v : ByteVec n) :
    Parses (array n : Reader ε (ByteVec n)) v.toList v := by
  intro rest
  have hlen : v.toList.length = n := v.toList_length
  have htake : (v.toList ++ rest).take n = v.toList := List.take_left' hlen
  have hdrop : (v.toList ++ rest).drop n = rest := List.drop_left' hlen
  unfold array
  rw [dif_pos (by rw [List.length_append]; omega)]
  simp only [htake, hdrop]
  rfl

theorem parses_require {ok : Bool} (h : ok = true) :
    Parses (require ok : Reader ε Unit) [] () := by
  intro rest
  subst h
  rfl

omit [Refusal ε] in
theorem parses_lift {x : Except ε α} {a : α} (h : x = .ok a) :
    Parses (liftM x : Reader ε α) [] a := by
  intro rest
  subst h
  rfl

omit [Refusal ε] in
theorem Parses.bind {r : Reader ε α} {f : α → Reader ε β} {bs bs' : List UInt8} {a : α} {b : β}
    (h : Parses r bs a) (h' : Parses (f a) bs' b) : Parses (r >>= f) (bs ++ bs') b := by
  intro rest
  show (r (bs ++ bs' ++ rest) >>= fun p => f p.1 p.2) = _
  rw [List.append_assoc, h]
  exact h' rest

omit [Refusal ε] in
/-- A step that consumes nothing. -/
theorem Parses.bind_nil {r : Reader ε α} {f : α → Reader ε β} {bs : List UInt8} {a : α} {b : β}
    (h : Parses r [] a) (h' : Parses (f a) bs b) : Parses (r >>= f) bs b :=
  h.bind h'

omit [Refusal ε] in
/-- The last step that consumes something. -/
theorem Parses.last {r : Reader ε α} {f : α → Reader ε β} {bs : List UInt8} {a : α} {b : β}
    (h : Parses r bs a) (h' : Parses (f a) [] b) : Parses (r >>= f) bs b := by
  have hbind := h.bind h'
  rwa [List.append_nil] at hbind

omit [Refusal ε] in
/-- The last step, after which only a pure value is built. -/
theorem Parses.map {r : Reader ε α} {f : α → β} {bs : List UInt8} {a : α} (h : Parses r bs a) :
    Parses (r >>= fun x => pure (f x)) bs (f a) :=
  h.last (parses_pure _)

omit [Refusal ε] in
/-- A step that consumes the first field. -/
theorem Parses.cons {r : Reader ε α} {f : α → Reader ε β} {field : List UInt8}
    {fields : List (List UInt8)} {a : α} {b : β} (h : Parses r field a)
    (h' : Parses (f a) fields.flatten b) : Parses (r >>= f) (field :: fields).flatten b :=
  h.bind h'

omit [Refusal ε] in
/-- A step that consumes the first group of fields. -/
theorem Parses.append {r : Reader ε α} {f : α → Reader ε β} {fields fields' : List (List UInt8)}
    {a : α} {b : β} (h : Parses r fields.flatten a) (h' : Parses (f a) fields'.flatten b) :
    Parses (r >>= f) (fields ++ fields').flatten b := by
  rw [List.flatten_append]
  exact h.bind h'

theorem Parses.readAll {r : Reader ε α} {bs : List UInt8} {a : α} (h : Parses r bs a) :
    readAll r bs = .ok a := by
  have hnil := h []
  rw [List.append_nil] at hnil
  unfold Wire.readAll
  rw [hnil]

/-! ### What a reader that succeeded has consumed -/

omit [Refusal ε] in
theorem bind_run_eq_ok {r : Reader ε α} {f : α → Reader ε β} {s : List UInt8}
    {p : β × List UInt8} :
    (r >>= f) s = .ok p ↔ ∃ a s', r s = .ok (a, s') ∧ f a s' = .ok p := by
  show (r s >>= fun q => f q.1 q.2) = .ok p ↔ _
  rw [Result.bind_eq_ok, Prod.exists]

omit [Refusal ε] in
theorem pure_run_eq_ok {a b : α} {s s' : List UInt8} :
    (pure a : Reader ε α) s = .ok (b, s') ↔ a = b ∧ s = s' := by
  show Except.ok (a, s) = .ok (b, s') ↔ _
  rw [Except.ok.injEq, Prod.mk.injEq]

theorem take_run_eq_ok {n : ℕ} {bs s s' : List UInt8} :
    (take n : Reader ε (List UInt8)) s = .ok (bs, s') ↔ s = bs ++ s' ∧ bs.length = n := by
  constructor
  · intro h
    unfold take at h
    split_ifs at h with hn
    · obtain ⟨rfl, rfl⟩ := Prod.mk.inj (Except.ok.inj h)
      rw [List.take_append_drop, List.length_take]
      exact ⟨rfl, by omega⟩
    · cases h
  · rintro ⟨rfl, hn⟩
    exact parses_take hn s'

theorem int_run_eq_ok [FixedWidth α] {x : α} {s s' : List UInt8} :
    (int : Reader ε α) s = .ok (x, s') ↔ s = wire x ++ s' := by
  constructor
  · intro h
    obtain ⟨bs, s'', htake, hpure⟩ := bind_run_eq_ok.1 h
    obtain ⟨rfl, hlen⟩ := take_run_eq_ok.1 htake
    obtain ⟨rfl, rfl⟩ := pure_run_eq_ok.1 hpure
    rw [wire_unwire hlen]
  · rintro rfl
    exact parses_int x s'

theorem array_run_eq_ok {n : ℕ} {v : ByteVec n} {s s' : List UInt8} :
    (array n : Reader ε (ByteVec n)) s = .ok (v, s') ↔ s = v.toList ++ s' := by
  constructor
  · intro h
    unfold array at h
    split_ifs at h with hn
    · obtain ⟨rfl, rfl⟩ := Prod.mk.inj (Except.ok.inj h)
      exact (List.take_append_drop n s).symm
    · cases h
  · rintro rfl
    exact parses_array v s'

theorem require_run_eq_ok {ok : Bool} {u : Unit} {s s' : List UInt8} :
    (require ok : Reader ε Unit) s = .ok (u, s') ↔ ok = true ∧ s = s' := by
  cases ok <;> simp [require, refuse]

omit [Refusal ε] in
theorem remaining_run_eq_ok {bs s s' : List UInt8} :
    (remaining : Reader ε (List UInt8)) s = .ok (bs, s') ↔ s = bs ∧ s' = [] := by
  show Except.ok (s, []) = .ok (bs, s') ↔ _
  rw [Except.ok.injEq, Prod.mk.injEq, eq_comm (a := [])]

omit [Refusal ε] in
theorem lift_run_eq_ok {x : Except ε α} {a : α} {s s' : List UInt8} :
    (liftM x : Reader ε α) s = .ok (a, s') ↔ x = .ok a ∧ s = s' := by
  show (x >>= fun b => pure (b, s)) = .ok (a, s') ↔ _
  rw [Result.bind_eq_ok]
  constructor
  · rintro ⟨b, hb, hp⟩
    obtain ⟨rfl, rfl⟩ := Prod.mk.inj (Except.ok.inj hp)
    exact ⟨hb, rfl⟩
  · rintro ⟨hb, rfl⟩
    exact ⟨a, hb, rfl⟩

theorem readAll_eq_ok {r : Reader ε α} {bs : List UInt8} {a : α} :
    readAll r bs = .ok a ↔ r bs = .ok (a, []) := by
  unfold Wire.readAll
  split <;> simp_all [refuse]

/-! ### Readers that undo a writer -/

/-- The reader consumes exactly what is written for the value that it answers. -/
def Inverts (r : Reader ε α) (w : α → List UInt8) : Prop :=
  ∀ s a s', r s = .ok (a, s') ↔ s = w a ++ s'

theorem inverts_int [FixedWidth α] : Inverts (int : Reader ε α) wire :=
  fun _ _ _ => int_run_eq_ok

theorem Inverts.optional {r : Reader ε α} {w : α → List UInt8} (h : Inverts r w) :
    Inverts (optional r) (optionalBytes w) := by
  intro s value s'
  constructor
  · intro hrun
    obtain ⟨present, rest, hpresent, hrun⟩ := bind_run_eq_ok.1 hrun
    rw [int_run_eq_ok] at hpresent
    split_ifs at hrun with h0 h1
    · obtain ⟨rfl, rfl⟩ := pure_run_eq_ok.1 hrun
      rw [hpresent, h0]
      rfl
    · obtain ⟨a, s'', hread, hrun⟩ := bind_run_eq_ok.1 hrun
      obtain ⟨rfl, rfl⟩ := pure_run_eq_ok.1 hrun
      rw [hpresent, h1, (h rest a s'').1 hread, optionalBytes, List.append_assoc]
    · cases hrun
  · rintro rfl
    cases value with
    | none => exact bind_run_eq_ok.2 ⟨0, s', int_run_eq_ok.2 rfl, rfl⟩
    | some a =>
      refine bind_run_eq_ok.2 ⟨1, w a ++ s', int_run_eq_ok.2 (List.append_assoc ..), ?_⟩
      exact bind_run_eq_ok.2 ⟨a, s', (h _ a s').2 rfl, rfl⟩

end Reading

end Wire
