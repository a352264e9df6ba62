import MsgRiver.Lib.Wire

/-!
# Writers and readers under a quota

A writer appends to a buffer that may not grow past a number of bytes, and announces items that may
not exceed a number in total.  A reader consumes what such a writer left, and counts the items
again.  Both carry their bounds with them, so a buffer beyond its quota cannot be built.

* `Written x bs n`: the writer appends `bs` and announces `n` items, if they still fit;
* `Definite x`: what the writer does depends on the buffer only through what fits;
* `Undoes P write read`: the reader answers exactly the values with `P`, behind exactly the bytes
  that are written for them.

`Undoes` composes along the fields of a record (`Undoes.field`, `Undoes.last`), so a pair of an
encoder and a decoder is compared field by field.
-/

namespace Quota

open Bytes
open Wire (Refusal refuse)

/-- The most bytes and items. -/
structure Limits where
  bytes : ℕ
  items : ℕ

/-- What is written so far, and how many items were announced. -/
structure Buffer (L : Limits) where
  bytes : List UInt8
  items : ℕ
  length_le : bytes.length ≤ L.bytes
  items_le : items ≤ L.items

/-- What is left to read, and how many items were announced. -/
structure Cursor (L : Limits) where
  rest : List UInt8
  items : ℕ
  length_le : rest.length ≤ L.bytes
  items_le : items ≤ L.items

/-- A writer within limits. -/
abbrev Writer (L : Limits) (ε α : Type) := StateT (Buffer L) (Except ε) α

/-- A reader within limits. -/
abbrev Reader (L : Limits) (ε α : Type) := StateT (Cursor L) (Except ε) α

variable {L : Limits} {ε α β γ : Type}

theorem length_drop_le {bytes : List UInt8} {n k : ℕ} (h : bytes.length ≤ n) :
    (bytes.drop k).length ≤ n := by
  rw [List.length_drop]
  omega

theorem length_append_le {bytes value : List UInt8} {n : ℕ} (h : bytes.length + value.length ≤ n) :
    (bytes ++ value).length ≤ n := by
  rwa [List.length_append]

@[ext] theorem Buffer.ext {b c : Buffer L} (hbytes : b.bytes = c.bytes) (hitems : b.items = c.items) :
    b = c := by
  cases b
  cases c
  cases hbytes
  cases hitems
  rfl

@[ext] theorem Cursor.ext {s t : Cursor L} (hrest : s.rest = t.rest) (hitems : s.items = t.items) :
    s = t := by
  cases s
  cases t
  cases hrest
  cases hitems
  rfl

section

variable [Refusal ε]

/-! ### Writing -/

/-- Append the bytes. -/
def put (value : List UInt8) : Writer L ε Unit := fun b =>
  if h : b.bytes.length + value.length ≤ L.bytes then
    .ok ((), { b with bytes := b.bytes ++ value, length_le := length_append_le h })
  else refuse

/-- Announce `n` items. -/
def announce (n : ℕ) : Writer L ε Unit := fun b =>
  if h : b.items + n ≤ L.items then .ok ((), { b with items := b.items + n, items_le := h })
  else refuse

/-- Write nothing and refuse. -/
def giveUp : Writer L ε α := fun _ => refuse

/-- An integer, the lowest byte first. -/
def int [FixedWidth α] (x : α) : Writer L ε Unit := put (wire x).reverse

/-- The buffer with more bytes and more items, if they fit. -/
def Buffer.extend (b : Buffer L) (bs : List UInt8) (n : ℕ) : Except ε (Unit × Buffer L) :=
  if h : b.bytes.length + bs.length ≤ L.bytes ∧ b.items + n ≤ L.items then
    .ok ((), ⟨b.bytes ++ bs, b.items + n, length_append_le h.1, h.2⟩)
  else refuse

theorem Buffer.extend_eq_ok {b c : Buffer L} {bs : List UInt8} {n : ℕ} :
    (b.extend bs n : Except ε (Unit × Buffer L)) = .ok ((), c) ↔
      c.bytes = b.bytes ++ bs ∧ c.items = b.items + n := by
  unfold Buffer.extend
  constructor
  · intro h
    split_ifs at h with hfit
    · cases h
      exact ⟨rfl, rfl⟩
    · cases h
  · rintro ⟨hbytes, hitems⟩
    have hlength := c.length_le
    have hle := c.items_le
    rw [hbytes, List.length_append] at hlength
    rw [hitems] at hle
    rw [dif_pos ⟨hlength, hle⟩]
    congr 2
    exact Buffer.ext hbytes.symm hitems.symm

/-- The writer appends `bs` and announces `n` items. -/
def Written (x : Writer L ε Unit) (bs : List UInt8) (n : ℕ) : Prop := ∀ b, x b = b.extend bs n

/-- The writer appends the same bytes and announces the same items in every buffer where they fit,
or it refuses in every buffer. -/
def Definite (x : Writer L ε Unit) : Prop :=
  (∃ bs n, Written x bs n) ∨ ∀ b, x b = refuse

theorem written_put (value : List UInt8) : Written (put value : Writer L ε Unit) value 0 := by
  intro b
  have hitems := b.items_le
  unfold put Buffer.extend
  simp only [Nat.add_zero, hitems, and_true]

theorem written_announce (n : ℕ) : Written (announce n : Writer L ε Unit) [] n := by
  intro b
  have hlength := b.length_le
  unfold announce Buffer.extend
  simp only [List.length_nil, Nat.add_zero, hlength, true_and, List.append_nil]

theorem written_int [FixedWidth α] (x : α) :
    Written (int x : Writer L ε Unit) (wire x).reverse 0 :=
  written_put _

theorem written_pure : Written (pure () : Writer L ε Unit) [] 0 := by
  intro b
  exact (Buffer.extend_eq_ok.2 ⟨(List.append_nil _).symm, rfl⟩).symm

theorem Written.bind {x y : Writer L ε Unit} {bs cs : List UInt8} {n m : ℕ} (hx : Written x bs n)
    (hy : Written y cs m) : Written (x >>= fun _ => y) (bs ++ cs) (n + m) := by
  intro b
  show (x b >>= fun p => y p.2) = _
  rw [hx]
  by_cases hfit : b.bytes.length + bs.length ≤ L.bytes ∧ b.items + n ≤ L.items
  · have hok : (b.extend bs n : Except ε (Unit × Buffer L)) =
        .ok ((), ⟨b.bytes ++ bs, b.items + n, length_append_le hfit.1, hfit.2⟩) := dif_pos hfit
    rw [hok]
    show y _ = _
    rw [hy]
    unfold Buffer.extend
    simp only [List.length_append, List.append_assoc, Nat.add_assoc]
  · have hbad : (b.extend bs n : Except ε (Unit × Buffer L)) = refuse := dif_neg hfit
    rw [hbad, Buffer.extend, dif_neg]
    · rfl
    · rw [List.length_append]
      omega

theorem Written.definite {x : Writer L ε Unit} {bs : List UInt8} {n : ℕ} (h : Written x bs n) :
    Definite x :=
  Or.inl ⟨bs, n, h⟩

theorem definite_giveUp : Definite (giveUp : Writer L ε Unit) := Or.inr fun _ => rfl

/-- A definite writer that goes through writes something. -/
theorem Definite.written {x : Writer L ε Unit} (h : Definite x) {b : Buffer L} {p : Unit × Buffer L}
    (hrun : x b = .ok p) : ∃ bs n, Written x bs n := by
  rcases h with h | h
  · exact h
  · rw [h b] at hrun
    cases hrun

theorem Definite.bind {x y : Writer L ε Unit} (hx : Definite x) (hy : Definite y) :
    Definite (x >>= fun _ => y) := by
  rcases hx with ⟨bs, n, hx⟩ | hx
  · rcases hy with ⟨cs, m, hy⟩ | hy
    · exact (hx.bind hy).definite
    · refine Or.inr fun b => ?_
      show (x b >>= fun p => y p.2) = _
      cases hrun : x b with
      | error e =>
        rw [hx, Buffer.extend] at hrun
        split_ifs at hrun
        exact hrun.symm
      | ok p => exact hy p.2
  · refine Or.inr fun b => ?_
    show (x b >>= fun p => y p.2) = _
    rw [hx]
    rfl

/-! ### Reading -/

/-- Consume `n` bytes. -/
def take (n : ℕ) : Reader L ε (List UInt8) := fun s =>
  if n ≤ s.rest.length then
    .ok (s.rest.take n,
      { s with rest := s.rest.drop n, length_le := length_drop_le s.length_le })
  else refuse

/-- Count `n` items. -/
def counted (n : ℕ) : Reader L ε Unit := fun s =>
  if h : s.items + n ≤ L.items then .ok ((), { s with items := s.items + n, items_le := h })
  else refuse

/-- Consume nothing and refuse. -/
def fail : Reader L ε α := fun _ => refuse

/-- Consume an integer, the lowest byte first. -/
def readInt [FixedWidth α] : Reader L ε α := do
  let bs ← take (FixedWidth.width α)
  return unwire bs.reverse

/-- `decode` `n` times. -/
def readMany (read : Reader L ε α) : ℕ → Reader L ε (List α)
  | 0 => return []
  | n + 1 => do
    let value ← read
    let values ← readMany read n
    return value :: values

omit [Refusal ε] in
theorem bind_run_eq_ok {r : Reader L ε α} {f : α → Reader L ε β} {s : Cursor L}
    {p : β × Cursor L} :
    (r >>= f) s = .ok p ↔ ∃ a t, r s = .ok (a, t) ∧ f a t = .ok p := by
  show (r s >>= fun q => f q.1 q.2) = .ok p ↔ _
  rw [Result.bind_eq_ok, Prod.exists]

omit [Refusal ε] in
theorem pure_run_eq_ok {a b : α} {s t : Cursor L} :
    (pure a : Reader L ε α) s = .ok (b, t) ↔ a = b ∧ s = t := by
  show Except.ok (a, s) = .ok (b, t) ↔ _
  rw [Except.ok.injEq, Prod.mk.injEq]

theorem take_run_eq_ok {n : ℕ} {bs : List UInt8} {s t : Cursor L} :
    (take n : Reader L ε (List UInt8)) s = .ok (bs, t) ↔
      bs.length = n ∧ s.rest = bs ++ t.rest ∧ t.items = s.items := by
  unfold take
  constructor
  · intro h
    split_ifs at h with hn
    · cases h
      exact ⟨by rw [List.length_take]; omega, (List.take_append_drop n s.rest).symm, rfl⟩
    · cases h
  · rintro ⟨rfl, hrest, hitems⟩
    rw [if_pos (by rw [hrest, List.length_append]; omega)]
    congr 2
    · rw [hrest, List.take_left]
    · refine Cursor.ext ?_ hitems.symm
      show s.rest.drop bs.length = t.rest
      rw [hrest, List.drop_left]

theorem counted_run_eq_ok {n : ℕ} {s t : Cursor L} :
    (counted n : Reader L ε Unit) s = .ok ((), t) ↔ t.rest = s.rest ∧ t.items = s.items + n := by
  unfold counted
  constructor
  · intro h
    split_ifs at h with hn
    · cases h
      exact ⟨rfl, rfl⟩
    · cases h
  · rintro ⟨hrest, hitems⟩
    have hle := t.items_le
    rw [hitems] at hle
    rw [dif_pos hle]
    congr 2
    exact Cursor.ext hrest.symm hitems.symm

theorem readInt_run_eq_ok [FixedWidth α] {x : α} {s t : Cursor L} :
    (readInt : Reader L ε α) s = .ok (x, t) ↔
      s.rest = (wire x).reverse ++ t.rest ∧ t.items = s.items := by
  unfold readInt
  rw [bind_run_eq_ok]
  constructor
  · rintro ⟨bs, t', htake, hpure⟩
    obtain ⟨hlength, hrest, hitems⟩ := take_run_eq_ok.1 htake
    obtain ⟨rfl, rfl⟩ := pure_run_eq_ok.1 hpure
    rw [wire_unwire (by rw [List.length_reverse, hlength]), List.reverse_reverse]
    exact ⟨hrest, hitems⟩
  · rintro ⟨hrest, hitems⟩
    refine ⟨(wire x).reverse, t, take_run_eq_ok.2 ⟨?_, hrest, hitems⟩, ?_⟩
    · rw [List.length_reverse, length_wire]
    · exact pure_run_eq_ok.2 ⟨by rw [List.reverse_reverse, unwire_wire], rfl⟩

/-! ### What was consumed -/

/-- Between the two positions stand the bytes and the items. -/
def Consumes (s t : Cursor L) (bs : List UInt8) (n : ℕ) : Prop :=
  s.rest = bs ++ t.rest ∧ t.items = s.items + n

theorem Consumes.trans {s t u : Cursor L} {bs cs : List UInt8} {n m : ℕ} (h : Consumes s t bs n)
    (h' : Consumes t u cs m) : Consumes s u (bs ++ cs) (n + m) := by
  obtain ⟨hrest, hitems⟩ := h
  obtain ⟨hrest', hitems'⟩ := h'
  exact ⟨by rw [hrest, hrest', List.append_assoc], by omega⟩

theorem Consumes.split {s u : Cursor L} {bs cs : List UInt8} {n m : ℕ}
    (h : Consumes s u (bs ++ cs) (n + m)) : ∃ t, Consumes s t bs n ∧ Consumes t u cs m := by
  obtain ⟨hrest, hitems⟩ := h
  have hlength := s.length_le
  have hle := u.items_le
  rw [hrest, List.append_assoc, List.length_append] at hlength
  refine ⟨⟨cs ++ u.rest, s.items + n, by omega, by omega⟩, ⟨?_, rfl⟩, rfl, ?_⟩
  · rw [hrest, List.append_assoc]
  · rw [hitems, Nat.add_assoc]

/-- An empty buffer with the items that a reader has counted. -/
def Cursor.empty (s : Cursor L) : Buffer L := ⟨[], s.items, Nat.zero_le _, s.items_le⟩

/-- What a reader has consumed can be written into an empty buffer. -/
theorem Written.run_of_consumes {x : Writer L ε Unit} {bs : List UInt8} {n : ℕ} (h : Written x bs n)
    {s t : Cursor L} (hst : Consumes s t bs n) :
    ∃ c : Buffer L, x s.empty = .ok ((), c) ∧ c.bytes = bs ∧ c.items = t.items := by
  obtain ⟨hrest, hitems⟩ := hst
  have hlength := s.length_le
  rw [hrest, List.length_append] at hlength
  refine ⟨⟨bs, t.items, by omega, t.items_le⟩, ?_, rfl, rfl⟩
  rw [h s.empty]
  exact Buffer.extend_eq_ok.2 ⟨rfl, hitems⟩

theorem Written.not_refused {x : Writer L ε Unit} {bs : List UInt8} {n : ℕ} (h : Written x bs n)
    {s t : Cursor L} (hst : Consumes s t bs n) : ¬ ∀ b, x b = refuse := by
  intro hrefused
  obtain ⟨c, hrun, -⟩ := h.run_of_consumes hst
  rw [hrefused] at hrun
  cases hrun

theorem Written.unique {x : Writer L ε Unit} {bs cs : List UInt8} {n m : ℕ} (h : Written x bs n)
    (h' : Written x cs m) {s t : Cursor L} (hst : Consumes s t cs m) : bs = cs ∧ n = m := by
  obtain ⟨c, hrun, hbytes, hitems⟩ := h'.run_of_consumes hst
  rw [h s.empty] at hrun
  obtain ⟨hbytes', hitems'⟩ := Buffer.extend_eq_ok.1 hrun
  refine ⟨hbytes'.symm.trans hbytes, ?_⟩
  have hcounted : c.items = s.items + n := hitems'
  have := hst.2
  omega

/-- The two parts of what a reader has consumed. -/
theorem Written.split {x y : Writer L ε Unit} (hx : Definite x) (hy : Definite y) {bs : List UInt8}
    {n : ℕ} (h : Written (x >>= fun _ => y) bs n) {s u : Cursor L} (hsu : Consumes s u bs n) :
    ∃ cs ds k l t, Written x cs k ∧ Written y ds l ∧ Consumes s t cs k ∧ Consumes t u ds l := by
  obtain ⟨c, hrun, -⟩ := h.run_of_consumes hsu
  have hparts : (x s.empty >>= fun q => y q.2) = .ok ((), c) := hrun
  obtain ⟨q, hq, hp⟩ := Result.bind_eq_ok.1 hparts
  obtain ⟨cs, k, hcs⟩ := hx.written hq
  obtain ⟨ds, l, hds⟩ := hy.written hp
  obtain ⟨rfl, rfl⟩ := (hcs.bind hds).unique h hsu
  obtain ⟨t, hst, htu⟩ := hsu.split
  exact ⟨cs, ds, k, l, t, hcs, hds, hst, htu⟩

omit [Refusal ε] in
theorem bind_pure_unit (x : Writer L ε Unit) : (x >>= fun _ => pure ()) = x := bind_pure x

/-! ### Readers that undo a writer -/

/-- The reader answers the values with `P`, each behind exactly the bytes and the items that are
written for it. -/
structure Undoes (P : α → Prop) (write : α → Writer L ε Unit) (read : Reader L ε α) : Prop where
  definite : ∀ a, Definite (write a)
  run_iff : ∀ s a t, read s = .ok (a, t) ↔
    P a ∧ ∃ bs n, Written (write a) bs n ∧ Consumes s t bs n

/-- The reader undoes the writer on all values. -/
abbrev Inverts (write : α → Writer L ε Unit) (read : Reader L ε α) : Prop :=
  Undoes (fun _ => True) write read

theorem Undoes.congr {P : α → Prop} (write : α → Writer L ε Unit)
    {write' : α → Writer L ε Unit} {read : Reader L ε α} (h : Undoes P write read)
    (hdefinite : ∀ a, Definite (write' a))
    (heq : ∀ a, P a → write a = write' a) : Undoes P write' read where
  definite := hdefinite
  run_iff s a t := by
    rw [h.run_iff]
    refine and_congr_right fun ha => ?_
    rw [heq a ha]

/-- A writer that always writes the same for a value, and a reader that expects it. -/
theorem inverts_of_written {write : α → Writer L ε Unit} {read : Reader L ε α}
    (bytes : α → List UInt8) (hwritten : ∀ a, Written (write a) (bytes a) 0)
    (hread : ∀ s a t, read s = .ok (a, t) ↔ Consumes s t (bytes a) 0) : Inverts write read where
  definite a := (hwritten a).definite
  run_iff s a t := by
    rw [hread]
    constructor
    · intro hst
      exact ⟨trivial, bytes a, 0, hwritten a, hst⟩
    · rintro ⟨-, bs, n, hbs, hst⟩
      obtain ⟨rfl, rfl⟩ := (hwritten a).unique hbs hst
      exact hst

theorem inverts_int [FixedWidth α] : Inverts (int : α → Writer L ε Unit) readInt :=
  inverts_of_written _ written_int fun _ _ _ => readInt_run_eq_ok

/-- The first field of a record: what follows answers only values with this field. -/
theorem Undoes.field {P : β → Prop} {write : α → Writer L ε Unit} {read : Reader L ε α}
    (h : Inverts write read) (get : β → α) {rest : β → Writer L ε Unit} {next : α → Reader L ε β}
    (hnext : ∀ a, Undoes (fun b => P b ∧ get b = a) rest (next a)) :
    Undoes P (fun b => write (get b) >>= fun _ => rest b) (read >>= next) where
  definite b := (h.definite (get b)).bind ((hnext (get b)).definite b)
  run_iff s b u := by
    rw [bind_run_eq_ok]
    constructor
    · rintro ⟨a, t, hread, hrun⟩
      obtain ⟨-, bs, n, hbs, hst⟩ := (h.run_iff s a t).1 hread
      obtain ⟨⟨hP, rfl⟩, cs, m, hcs, htu⟩ := ((hnext a).run_iff t b u).1 hrun
      exact ⟨hP, bs ++ cs, n + m, hbs.bind hcs, hst.trans htu⟩
    · rintro ⟨hP, bs, n, hbs, hsu⟩
      obtain ⟨cs, ds, k, l, t, hcs, hds, hst, htu⟩ :=
        hbs.split (h.definite (get b)) ((hnext (get b)).definite b) hsu
      exact ⟨get b, t, (h.run_iff ..).2 ⟨trivial, cs, k, hcs, hst⟩,
        ((hnext (get b)).run_iff ..).2 ⟨⟨hP, rfl⟩, ds, l, hds, htu⟩⟩

/-- Nothing is left to read. -/
theorem undoes_pure {P : β → Prop} {b : β} (h : ∀ c, P c ↔ c = b) :
    Undoes P (fun _ => (pure () : Writer L ε Unit)) (pure b) where
  definite _ := written_pure.definite
  run_iff s c t := by
    rw [pure_run_eq_ok, h]
    constructor
    · rintro ⟨rfl, rfl⟩
      exact ⟨rfl, [], 0, written_pure, rfl, rfl⟩
    · rintro ⟨rfl, bs, n, hbs, hst⟩
      obtain ⟨rfl, rfl⟩ := written_pure.unique hbs hst
      exact ⟨rfl, Cursor.ext hst.1 hst.2.symm⟩

theorem undoes_fail {P : β → Prop} {write : β → Writer L ε Unit} (hdefinite : ∀ b, Definite (write b))
    (h : ∀ b, ¬ P b) : Undoes P write fail where
  definite := hdefinite
  run_iff s b t := by
    constructor
    · intro hrun
      cases hrun
    · rintro ⟨hP, -⟩
      exact absurd hP (h b)

/-- The last field of a record. -/
theorem Undoes.last {P : β → Prop} {write : α → Writer L ε Unit} {read : Reader L ε α}
    (h : Inverts write read) (get : β → α) {build : α → β}
    (hbuild : ∀ a b, P b ∧ get b = a ↔ b = build a) :
    Undoes P (fun b => write (get b)) (read >>= fun a => pure (build a)) := by
  have hfield := Undoes.field h get fun a => undoes_pure (hbuild a)
  exact hfield.congr _ (fun b => h.definite (get b)) fun b _ => bind_pure_unit (write (get b))

/-- A value that is written as a value of another type, which is checked when it is read. -/
theorem Undoes.checked {P : β → Prop} {write : α → Writer L ε Unit} {read : Reader L ε α}
    (h : Inverts write read) (get : β → α) {next : α → Reader L ε β} (parse : α → Option β)
    (hnext : ∀ a, next a = match parse a with | some b => pure b | none => fail)
    (hparse : ∀ a b, parse a = some b ↔ P b ∧ get b = a) :
    Undoes P (fun b => write (get b)) (read >>= next) := by
  have hfield : Undoes P (fun b => write (get b) >>= fun _ => pure ()) (read >>= next) := by
    refine Undoes.field h get fun a => ?_
    rw [hnext]
    cases hread : parse a with
    | none =>
      refine undoes_fail (fun _ => written_pure.definite) fun b hb => ?_
      rw [← hparse, hread] at hb
      cases hb
    | some c =>
      refine undoes_pure fun b => ?_
      rw [← hparse, hread, Option.some.injEq, eq_comm]
  exact hfield.congr _ (fun b => h.definite (get b)) fun b _ => bind_pure_unit (write (get b))

/-- A value that is written as a value of a smaller type, if it has one. -/
theorem inverts_partial {write : α → Writer L ε Unit} {read : Reader L ε α} (h : Inverts write read)
    {widen : α → β} {narrow : β → Option α} (hnarrow : ∀ a b, narrow b = some a ↔ widen a = b)
    {write' : β → Writer L ε Unit}
    (hwrite : ∀ b, write' b = match narrow b with | some a => write a | none => giveUp) :
    Inverts write' (read >>= fun a => pure (widen a)) where
  definite b := by
    rw [hwrite]
    cases narrow b with
    | none => exact definite_giveUp
    | some a => exact h.definite a
  run_iff s b t := by
    rw [bind_run_eq_ok, hwrite]
    constructor
    · rintro ⟨a, t', hread, hpure⟩
      obtain ⟨rfl, rfl⟩ := pure_run_eq_ok.1 hpure
      rw [(hnarrow a _).2 rfl]
      exact (h.run_iff s a t').1 hread
    · rintro ⟨-, bs, n, hbs, hst⟩
      cases hb : narrow b with
      | none =>
        rw [hb] at hbs
        exact absurd (fun _ => rfl) (hbs.not_refused hst)
      | some a =>
        rw [hb] at hbs
        exact ⟨a, t, (h.run_iff s a t).2 ⟨trivial, bs, n, hbs, hst⟩,
          pure_run_eq_ok.2 ⟨(hnarrow a b).1 hb, rfl⟩⟩

/-- An optional value. -/
theorem undoes_optional {P : Option α → Prop} {present : Bool} {write : α → Writer L ε Unit}
    {read : Reader L ε α} (h : Inverts write read) (hP : ∀ x, P x ↔ x.isSome = present) :
    Undoes P (fun x => match x with | none => pure () | some a => write a)
      (if present then (do let a ← read; pure (some a)) else pure none) := by
  have hdefinite : ∀ x : Option α,
      Definite (match x with | none => (pure () : Writer L ε Unit) | some a => write a) := by
    rintro (_ | a)
    · exact written_pure.definite
    · exact h.definite a
  cases present with
  | false =>
    refine (undoes_pure fun x => ?_).congr _ hdefinite ?_
    · rw [hP, Option.isSome_eq_false_iff, Option.isNone_iff_eq_none]
    · rintro (_ | a) ha
      · rfl
      · rw [hP] at ha
        cases ha
  | true =>
    refine ⟨hdefinite, fun s x t => ?_⟩
    rw [if_pos rfl, bind_run_eq_ok]
    constructor
    · rintro ⟨a, s', hread, hpure⟩
      obtain ⟨rfl, rfl⟩ := pure_run_eq_ok.1 hpure
      exact ⟨(hP _).2 rfl, ((h.run_iff s a s').1 hread).2⟩
    · rintro ⟨hx, hwritten⟩
      cases x with
      | none => cases (hP _).1 hx
      | some a =>
        exact ⟨a, t, (h.run_iff s a t).2 ⟨trivial, hwritten⟩, pure_run_eq_ok.2 ⟨rfl, rfl⟩⟩

/-- A number of values. -/
theorem undoes_many {P : List α → Prop} {n : ℕ} {write : α → Writer L ε Unit} {read : Reader L ε α}
    (h : Inverts write read) (hP : ∀ values, P values ↔ values.length = n) :
    Undoes P (fun values => values.forM write) (readMany read n) := by
  have hdefinite : ∀ values : List α, Definite (values.forM write) := by
    intro values
    induction values with
    | nil => exact written_pure.definite
    | cons value values ih => exact (h.definite value).bind ih
  induction n generalizing P with
  | zero =>
    refine (undoes_pure fun values => (hP values).trans List.length_eq_zero_iff).congr _ hdefinite ?_
    intro values hlength
    rw [hP, List.length_eq_zero_iff] at hlength
    rw [hlength]
    rfl
  | succ n ih =>
    have ih := ih (P := fun values => values.length = n) fun _ => Iff.rfl
    refine ⟨hdefinite, fun s values u => ?_⟩
    rw [readMany, bind_run_eq_ok, hP]
    constructor
    · rintro ⟨value, t, hread, hrun⟩
      obtain ⟨rest, u', hmany, hpure⟩ := bind_run_eq_ok.1 hrun
      obtain ⟨rfl, rfl⟩ := pure_run_eq_ok.1 hpure
      obtain ⟨-, bs, k, hbs, hst⟩ := (h.run_iff s value t).1 hread
      obtain ⟨hlength, cs, l, hcs, htu⟩ := (ih.run_iff t rest u').1 hmany
      exact ⟨by rw [List.length_cons, hlength], bs ++ cs, k + l, hbs.bind hcs, hst.trans htu⟩
    · rintro ⟨hlength, bs, k, hbs, hsu⟩
      cases values with
      | nil => cases hlength
      | cons value values =>
        obtain ⟨cs, ds, k, l, t, hcs, hds, hst, htu⟩ :=
          hbs.split (h.definite value) (hdefinite values) hsu
        refine ⟨value, t, (h.run_iff ..).2 ⟨trivial, cs, k, hcs, hst⟩, ?_⟩
        refine bind_run_eq_ok.2 ⟨values, u, ?_, pure_run_eq_ok.2 ⟨rfl, rfl⟩⟩
        exact (ih.run_iff ..).2 ⟨Nat.succ.inj hlength, ds, l, hds, htu⟩

end

end Quota
