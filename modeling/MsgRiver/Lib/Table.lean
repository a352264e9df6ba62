import Mathlib.Data.List.Nodup
import Mathlib.Data.List.Basic
import Mathlib.Tactic.Common

/-!
# Tables with CHECK constraints and unique keys

The fragment of a relational store that single-table statements need.  A `Schema` gives a row
predicate (the conjunction of the `CHECK` constraints) and the key columns that a `UNIQUE` or
`PRIMARY KEY` index keeps apart.  A `Table` carries the proof that its rows meet both, so a
violating table cannot be built; a statement that would build one is refused as a whole:

* `Table.insert` adds one row at the end, or fails;
* `Table.update` rewrites the selected rows and reports how many they were, or fails;
* `Table.select` reads the first row that meets a condition.

`firstBy` is `ORDER BY … LIMIT 1` for an ordering given as a Boolean comparison.
-/

namespace RelTable

/-- Row constraint and unique key columns. -/
structure Schema (ρ κ : Type*) where
  check : ρ → Bool
  keys : List (ρ → κ)

variable {ρ κ : Type*}

/-- Rows in insertion order, with the constraints of the schema as invariant. -/
structure Table (S : Schema ρ κ) where
  rows : List ρ
  checked : ∀ r ∈ rows, S.check r = true
  unique : ∀ k ∈ S.keys, (rows.map k).Nodup

namespace Table

variable {S : Schema ρ κ}

@[ext] theorem ext {t u : Table S} (h : t.rows = u.rows) : t = u := by
  cases t; cases u; cases h; rfl

/-- The table without rows. -/
def empty : Table S := ⟨[], by simp, by simp⟩

@[simp] theorem rows_empty : (empty : Table S).rows = [] := rfl

theorem unique_append_singleton {k : ρ → κ} {rows : List ρ} {r : ρ} (h : (rows.map k).Nodup)
    (hr : k r ∉ rows.map k) : ((rows ++ [r]).map k).Nodup := by
  rw [List.map_append, List.map_singleton, List.nodup_append]
  refine ⟨h, List.nodup_singleton _, ?_⟩
  intro a ha b hb hab
  rw [List.mem_singleton] at hb
  exact hr (hb ▸ hab ▸ ha)

/-- A key column determines the row. -/
theorem eq_of_key {t : Table S} {k : ρ → κ} (hk : k ∈ S.keys) {a b : ρ} (ha : a ∈ t.rows)
    (hb : b ∈ t.rows) (h : k a = k b) : a = b :=
  List.inj_on_of_nodup_map (t.unique k hk) ha hb h

/-- `SELECT … WHERE sel`, read as one row. -/
def select (t : Table S) (sel : ρ → Bool) : Option ρ := t.rows.find? sel

theorem select_eq_none {t : Table S} {sel : ρ → Bool} :
    t.select sel = none ↔ ∀ r ∈ t.rows, sel r = false := by
  simp [select, List.find?_eq_none]

variable [DecidableEq κ]

/-- `INSERT`: refused when a CHECK fails or a key is taken. -/
def insert (t : Table S) (r : ρ) : Option (Table S) :=
  if h : S.check r = true ∧ ∀ k ∈ S.keys, k r ∉ t.rows.map k then
    some
      { rows := t.rows ++ [r]
        checked := by
          intro x hx
          rcases List.mem_append.1 hx with hx | hx
          · exact t.checked x hx
          · rw [List.mem_singleton.1 hx]; exact h.1
        unique := fun k hk => unique_append_singleton (t.unique k hk) (h.2 k hk) }
  else none

/-- `UPDATE … SET set WHERE sel`, with the number of selected rows. -/
def update (t : Table S) (sel : ρ → Bool) (set : ρ → ρ) : Option (Table S × ℕ) :=
  let rows := t.rows.map fun r => if sel r then set r else r
  if h : (∀ r ∈ rows, S.check r = true) ∧ ∀ k ∈ S.keys, (rows.map k).Nodup then
    some (⟨rows, h.1, h.2⟩, t.rows.countP sel)
  else none

/-! ### INSERT -/

theorem insert_eq_some {t t' : Table S} {r : ρ} :
    t.insert r = some t' ↔
      S.check r = true ∧ (∀ k ∈ S.keys, k r ∉ t.rows.map k) ∧ t'.rows = t.rows ++ [r] := by
  unfold insert
  split_ifs with h
  · simp only [Option.some.injEq, h.1, true_and]
    constructor
    · rintro rfl
      exact ⟨fun k hk => h.2 k hk, rfl⟩
    · rintro ⟨-, h'⟩
      exact Table.ext h'.symm
  · constructor
    · intro h'; cases h'
    · rintro ⟨h1, h2, -⟩
      exact absurd ⟨h1, h2⟩ h

/-- An insert is refused exactly when a CHECK fails or a key is taken. -/
theorem exists_insert_iff {t : Table S} {r : ρ} :
    (∃ t', t.insert r = some t') ↔ S.check r = true ∧ ∀ k ∈ S.keys, k r ∉ t.rows.map k := by
  constructor
  · rintro ⟨t', h⟩
    obtain ⟨hcheck, hkeys, -⟩ := insert_eq_some.1 h
    exact ⟨hcheck, hkeys⟩
  · intro h
    exact ⟨_, dif_pos h⟩

/-! ### UPDATE -/

theorem update_eq_some {t : Table S} {sel : ρ → Bool} {set : ρ → ρ} {p : Table S × ℕ}
    (h : t.update sel set = some p) :
    p.1.rows = (t.rows.map fun r => if sel r then set r else r) ∧ p.2 = t.rows.countP sel := by
  unfold update at h
  simp only at h
  split_ifs at h with hc
  cases h
  exact ⟨rfl, rfl⟩

/-- An update that keeps the key columns is refused exactly when a selected row fails its CHECK
after the assignment. -/
theorem update_isSome_iff {t : Table S} {sel : ρ → Bool} {set : ρ → ρ}
    (hk : ∀ k ∈ S.keys, ∀ r, k (set r) = k r) :
    (t.update sel set).isSome ↔ ∀ r ∈ t.rows, sel r = true → S.check (set r) = true := by
  have hmap : ∀ k ∈ S.keys, ((t.rows.map fun r => if sel r then set r else r).map k)
      = t.rows.map k := by
    intro k hk'
    rw [List.map_map]
    apply List.map_congr_left
    intro r _
    simp only [Function.comp]
    split_ifs
    · exact hk k hk' r
    · rfl
  unfold update
  simp only
  split_ifs with h
  · simp only [Option.isSome_some, true_iff]
    intro r hr hs
    have := h.1 (if sel r then set r else r) (List.mem_map_of_mem hr)
    rwa [if_pos hs] at this
  · simp only [Option.isSome_none, Bool.false_eq_true, false_iff]
    intro hall
    apply h
    constructor
    · intro x hx
      obtain ⟨r, hr, rfl⟩ := List.mem_map.1 hx
      split_ifs with hs
      · exact hall r hr hs
      · exact t.checked r hr
    · intro k hk'
      rw [hmap k hk']
      exact t.unique k hk'

/-- When no row is selected, nothing changes. -/
theorem update_of_countP_eq_zero {t : Table S} {sel : ρ → Bool} {set : ρ → ρ} {p : Table S × ℕ}
    (h : t.update sel set = some p) (h0 : p.2 = 0) : p.1 = t := by
  obtain ⟨hrows, hn⟩ := update_eq_some h
  rw [hn, List.countP_eq_zero] at h0
  apply Table.ext
  rw [hrows]
  conv_rhs => rw [← List.map_id t.rows]
  apply List.map_congr_left
  intro r hr
  rw [if_neg (by simpa using h0 r hr)]
  rfl

/-! ### Keys -/

/-- A lookup by a key column finds the one row that has it. -/
theorem select_key_eq_some {t : Table S} {k : ρ → κ} (hk : k ∈ S.keys) {v : κ} {r : ρ} :
    t.select (fun x => decide (k x = v)) = some r ↔ r ∈ t.rows ∧ k r = v := by
  unfold select
  constructor
  · intro h
    exact ⟨List.mem_of_find?_eq_some h, by simpa using List.find?_some h⟩
  · rintro ⟨hr, rfl⟩
    cases hf : t.rows.find? (fun x => decide (k x = k r)) with
    | none => exact absurd (List.find?_eq_none.1 hf r hr) (by simp)
    | some x =>
      have hx := List.mem_of_find?_eq_some hf
      have hxk : k x = k r := by simpa using List.find?_some hf
      rw [eq_of_key hk hx hr hxk]

/-- A condition that fixes a key selects at most one row. -/
theorem countP_key_le_one {t : Table S} {k : ρ → κ} (hk : k ∈ S.keys) (v : κ) (q : ρ → Bool) :
    t.rows.countP (fun x => decide (k x = v) && q x) ≤ 1 := by
  have hmono : t.rows.countP (fun x => decide (k x = v) && q x)
      ≤ t.rows.countP (fun x => decide (k x = v)) := by
    apply List.countP_mono_left
    intro x _ hx
    simp only [Bool.and_eq_true] at hx
    exact hx.1
  refine Nat.le_trans hmono ?_
  have hcount : t.rows.countP (fun x => decide (k x = v)) = (t.rows.map k).count v := by
    rw [List.count, List.countP_map]
    apply List.countP_congr
    intro x _
    simp
  rw [hcount]
  exact List.nodup_iff_count_le_one.1 (t.unique k hk) v

end Table

/-! ### ORDER BY … LIMIT 1 -/

/-- The first of the rows in the order `lt`; an earlier row wins a tie. -/
def firstBy (lt : ρ → ρ → Bool) : List ρ → Option ρ
  | [] => none
  | r :: rs =>
    match firstBy lt rs with
    | none => some r
    | some x => if lt x r then some x else some r

theorem firstBy_mem {lt : ρ → ρ → Bool} {rs : List ρ} {r : ρ} (h : firstBy lt rs = some r) :
    r ∈ rs := by
  induction rs generalizing r with
  | nil => cases h
  | cons a rs ih =>
    unfold firstBy at h
    split at h
    · cases h; exact List.mem_cons_self
    · rename_i x hx
      split_ifs at h <;> cases h
      · exact List.mem_cons_of_mem _ (ih hx)
      · exact List.mem_cons_self

theorem firstBy_eq_none {lt : ρ → ρ → Bool} {rs : List ρ} : firstBy lt rs = none ↔ rs = [] := by
  cases rs with
  | nil => simp [firstBy]
  | cons a rs =>
    simp only [reduceCtorEq, iff_false]
    unfold firstBy
    split
    · simp
    · split_ifs <;> simp

end RelTable
