import Mathlib.Data.Int.Notation
import Mathlib.Data.List.GetD
import Mathlib.Data.List.Nodup
import Mathlib.Logic.Function.Basic
import Mathlib.Order.Nat
import Mathlib.Tactic.Common

/-!
# A fragment of SQL: tables, scripts and their schemas

Values with `NULL`, expressions, tables whose rows meet their `CHECK` and `UNIQUE` constraints, and
the statements that build and change them.  A statement is refused (`none`) or gives the next
database.

A database has a `schema`, its relations and triggers without rows, and a statement acts on the
schema alone (`Statement.declare`): as long as the rows that it leaves fit, what a statement does to
the schema of a database is what it declares (`map_schema_exec`).  So one evaluation on a schema
decides a script for all databases of that schema.

The statements of a transaction are carried out one by one, and any of them may fail for reasons
outside the database (`statement`).  A `Steady` action answers as it does without failures, exactly
when none of the statements that it carries out fails.
-/

namespace Sql

/-- A value of a row. -/
inductive Value
  | null
  | integer (n : ℤ)
  | text (s : String)
  | blob (bytes : List UInt8)
  deriving DecidableEq

namespace Value

/-- A truth value as SQL has it. -/
def ofBool (b : Bool) : Value := integer (if b then 1 else 0)

/-- `a <= b` on values other than `NULL`: integers before texts before blobs. -/
def le : Value → Value → Bool
  | integer a, integer b => a ≤ b
  | integer _, _ => true
  | text _, integer _ => false
  | text a, text b => decide (a ≤ b)
  | text _, _ => true
  | blob a, blob b => decide (a ≤ b)
  | _, _ => false

/-- A comparison, which is `NULL` when one side is. -/
def compare (f : Value → Value → Bool) : Value → Value → Value
  | null, _ => null
  | _, null => null
  | a, b => ofBool (f a b)

/-- `length`: the characters of a text before the first NUL, the bytes of a blob. -/
def length : Value → Value
  | null => null
  | integer n => integer (toString n).length
  | text s => integer (s.toList.takeWhile (· ≠ '\x00')).length
  | blob bytes => integer bytes.length

/-- `a AND b` of two comparisons. -/
def both : Value → Value → Value
  | integer 0, _ => integer 0
  | _, integer 0 => integer 0
  | null, _ => null
  | _, null => null
  | _, _ => integer 1

end Value

/-- The values of a row. -/
abbrev Row := List Value

/-- An expression over the columns of one table. -/
inductive Expr
  | column (name : String)
  | literal (v : Value)
  | length (e : Expr)
  | equal (a b : Expr)
  | less (a b : Expr)
  | between (e low high : Expr)
  | isIn (e : Expr) (values : List Value)
  | notIn (e : Expr) (values : List Value)
  | isNotNull (e : Expr)
  | isInteger (e : Expr)
  deriving DecidableEq

/-- The value of a column in a row. -/
def field (columns : List String) (name : String) (row : Row) : Value :=
  row.getD (columns.idxOf name) .null

namespace Expr

/-- The value of an expression on a row. -/
def eval (columns : List String) (row : Row) : Expr → Value
  | column name => field columns name row
  | literal v => v
  | length e => (e.eval columns row).length
  | equal a b => .compare (fun x y => decide (x = y)) (a.eval columns row) (b.eval columns row)
  | less a b => .compare (fun x y => !y.le x) (a.eval columns row) (b.eval columns row)
  | between e low high =>
    .both (.compare Value.le (low.eval columns row) (e.eval columns row))
      (.compare Value.le (e.eval columns row) (high.eval columns row))
  | isIn e values =>
    .compare (fun x _ => decide (x ∈ values)) (e.eval columns row) (.integer 0)
  | notIn e values =>
    .compare (fun x _ => decide (x ∉ values)) (e.eval columns row) (.integer 0)
  | isNotNull e => .ofBool (decide (e.eval columns row ≠ .null))
  | isInteger e => .ofBool (match e.eval columns row with | .integer _ => true | _ => false)

/-- The columns that an expression reads. -/
def columns : Expr → List String
  | column name => [name]
  | literal _ => []
  | length e | isIn e _ | notIn e _ | isNotNull e | isInteger e => e.columns
  | equal a b | less a b => a.columns ++ b.columns
  | between e low high => e.columns ++ low.columns ++ high.columns

/-- A `WHERE` condition selects the row. -/
def selects (columns : List String) (row : Row) (e : Expr) : Bool :=
  match e.eval columns row with
  | .integer n => n ≠ 0
  | _ => false

/-- A `CHECK` constraint passes, also when it is `NULL`. -/
def passes (columns : List String) (row : Row) (e : Expr) : Bool := e.eval columns row ≠ .integer 0

end Expr

theorem field_append {columns : List String} {row : Row} {name : String}
    (hname : name ∈ columns) (hlength : row.length = columns.length) (more : List String)
    (values : Row) : field (columns ++ more) name (row ++ values) = field columns name row := by
  have hlt : columns.idxOf name < row.length := by
    rw [hlength]
    exact List.idxOf_lt_length_iff.2 hname
  unfold field
  rw [List.idxOf_append_of_mem hname, List.getD_append _ _ _ _ hlt]

theorem field_last {columns : List String} {row : Row} {name : String} (hname : name ∉ columns)
    (hlength : row.length = columns.length) (v : Value) :
    field (columns ++ [name]) name (row ++ [v]) = v := by
  unfold field
  rw [List.idxOf_append_of_notMem hname, ← hlength]
  simp

/-- More columns at the end of the row do not change an expression over the first ones. -/
theorem Expr.eval_append {columns : List String} {row : Row} {e : Expr}
    (hscope : e.columns ⊆ columns) (hlength : row.length = columns.length) (more : List String)
    (values : Row) : e.eval (columns ++ more) (row ++ values) = e.eval columns row := by
  induction e with
  | column name => exact field_append (hscope (List.mem_singleton.2 rfl)) hlength more values
  | literal v => rfl
  | length e ih | isIn e _ ih | notIn e _ ih | isNotNull e ih | isInteger e ih =>
    simp only [eval, ih hscope]
  | equal a b iha ihb | less a b iha ihb =>
    obtain ⟨ha, hb⟩ := List.append_subset.1 hscope
    simp only [eval, iha ha, ihb hb]
  | between e low high ihe ihlow ihhigh =>
    obtain ⟨hel, hhigh⟩ := List.append_subset.1 hscope
    obtain ⟨he, hlow⟩ := List.append_subset.1 hel
    simp only [eval, ihe he, ihlow hlow, ihhigh hhigh]

/-! ### Tables -/

/-- What `CREATE TABLE` says: the columns, their constraints, the unique columns, and the text,
where a query reads it. -/
structure Shape where
  sql : Option String
  columns : List String
  checks : List Expr
  unique : List String
  deriving DecidableEq

/-- One row meets the constraints of its own. -/
def Shape.AdmitsRow (s : Shape) (r : Row) : Prop :=
  r.length = s.columns.length ∧ ∀ e ∈ s.checks, e.passes s.columns r = true

instance (s : Shape) (r : Row) : Decidable (s.AdmitsRow r) :=
  inferInstanceAs (Decidable (_ ∧ _))

/-- The rows meet the constraints; `NULL`s are no duplicates. -/
def Shape.Admits (s : Shape) (rows : List Row) : Prop :=
  (∀ r ∈ rows, s.AdmitsRow r) ∧
  ∀ c ∈ s.unique, ((rows.map (field s.columns c)).filter (· ≠ .null)).Nodup

instance (s : Shape) (rows : List Row) : Decidable (s.Admits rows) :=
  inferInstanceAs (Decidable (_ ∧ _))

theorem Shape.admits_nil (s : Shape) : s.Admits [] := by
  simp [Shape.Admits]

/-- A table: rows that meet the constraints of its shape. -/
structure Table where
  shape : Shape
  rows : List Row
  admitted : shape.Admits rows

@[ext] theorem Table.ext {t u : Table} (hshape : t.shape = u.shape) (hrows : t.rows = u.rows) :
    t = u := by
  cases t
  cases u
  cases hshape
  cases hrows
  rfl

/-- The table of a shape with some rows, unless they violate a constraint. -/
def Table.ofRows? (s : Shape) (rows : List Row) : Option Table :=
  if h : s.Admits rows then some ⟨s, rows, h⟩ else none

theorem Table.ofRows?_eq_some {s : Shape} {rows : List Row} {t : Table} :
    Table.ofRows? s rows = some t ↔ t.shape = s ∧ t.rows = rows := by
  unfold ofRows?
  split_ifs with h
  · simp only [Option.some.injEq]
    constructor
    · rintro rfl
      exact ⟨rfl, rfl⟩
    · rintro ⟨hshape, hrows⟩
      exact Table.ext hshape.symm hrows.symm
  · refine iff_of_false nofun ?_
    rintro ⟨rfl, rfl⟩
    exact h t.admitted

theorem Table.ofRows?_isSome {s : Shape} {rows : List Row} :
    (Table.ofRows? s rows).isSome ↔ s.Admits rows := by
  unfold ofRows?
  split_ifs with h
  · exact iff_of_true rfl h
  · exact iff_of_false nofun h

/-- A table without rows. -/
def Table.empty (s : Shape) : Table := ⟨s, [], s.admits_nil⟩

/-- `UPDATE … SET column = value WHERE sel`, on one row. -/
def Shape.assign (s : Shape) (column : String) (value sel : Expr) (row : Row) : Row :=
  if sel.selects s.columns row then
    row.set (s.columns.idxOf column) (value.eval s.columns row)
  else row

/-- The row that `INSERT INTO t (columns) VALUES (values)` adds. -/
def Shape.fill (s : Shape) (columns : List String) (values : Row) : Row :=
  s.columns.map fun c => field columns c values

/-- `ALTER TABLE … ADD COLUMN`. -/
def Shape.widen (s : Shape) (column : String) (checks : List Expr) : Shape :=
  ⟨none, s.columns ++ [column], s.checks ++ checks, s.unique⟩

/-- The constraints read only columns of the table. -/
def Shape.Scoped (s : Shape) : Prop :=
  (∀ e ∈ s.checks, e.columns ⊆ s.columns) ∧ s.unique ⊆ s.columns

instance (s : Shape) : Decidable s.Scoped :=
  inferInstanceAs (Decidable (_ ∧ _))

/-- A new column keeps what was admitted when its own constraints pass. -/
theorem Shape.Admits.widen {s : Shape} {rows : List Row} (h : s.Admits rows) (hscoped : s.Scoped)
    {column : String} {default : Value} {checks : List Expr}
    (hchecks : ∀ r ∈ rows, ∀ e ∈ checks,
      e.passes (s.columns ++ [column]) (r ++ [default]) = true) :
    (s.widen column checks).Admits (rows.map (· ++ [default])) := by
  constructor
  · intro x hx
    obtain ⟨r, hr, rfl⟩ := List.mem_map.1 hx
    obtain ⟨hlength, hold⟩ := h.1 r hr
    refine ⟨by simp [Shape.widen, hlength], fun e he => ?_⟩
    rcases List.mem_append.1 he with he | he
    · have heval := Expr.eval_append (hscoped.1 e he) hlength [column] [default]
      simpa only [Expr.passes, Shape.widen, heval] using hold e he
    · exact hchecks r hr e he
  · intro c hc
    have hmap : (rows.map (· ++ [default])).map (field (s.columns ++ [column]) c) =
        rows.map (field s.columns c) := by
      rw [List.map_map]
      refine List.map_congr_left fun r hr => ?_
      exact field_append (hscoped.2 hc) (h.1 r hr).1 [column] [default]
    simp only [Shape.widen, hmap]
    exact h.2 c hc

theorem field_set {columns : List String} {column name : String} (hcolumn : column ∈ columns)
    (hne : name ≠ column) (row : Row) (v : Value) :
    field columns name (row.set (columns.idxOf column) v) = field columns name row := by
  have hidx : columns.idxOf column ≠ columns.idxOf name := by
    intro h
    exact hne ((List.idxOf_inj hcolumn).1 h).symm
  unfold field
  rw [List.getD_eq_getElem?_getD, List.getD_eq_getElem?_getD, List.getElem?_set_ne hidx]

/-- An expression does not change with a column that it does not read. -/
theorem Expr.eval_set {columns : List String} {column : String} (hcolumn : column ∈ columns)
    {e : Expr} (he : column ∉ e.columns) (row : Row) (v : Value) :
    e.eval columns (row.set (columns.idxOf column) v) = e.eval columns row := by
  induction e with
  | column name => exact field_set hcolumn (fun h => he (List.mem_singleton.2 h.symm)) row v
  | literal v => rfl
  | length e ih | isIn e _ ih | notIn e _ ih | isNotNull e ih | isInteger e ih =>
    simp only [eval, ih he]
  | equal a b iha ihb | less a b iha ihb =>
    simp only [Expr.columns, List.mem_append, not_or] at he
    simp only [eval, iha he.1, ihb he.2]
  | between e low high ihe ihlow ihhigh =>
    simp only [Expr.columns, List.mem_append, not_or] at he
    simp only [eval, ihe he.1.1, ihlow he.1.2, ihhigh he.2]

/-- An assignment to a column keeps what was admitted when the constraints on the column pass. -/
theorem Shape.Admits.assign {s : Shape} {rows : List Row} (h : s.Admits rows) {column : String}
    {value sel : Expr} (hcolumn : column ∈ s.columns) (hunique : column ∉ s.unique)
    (hchecks : ∀ r ∈ rows, ∀ e ∈ s.checks, column ∈ e.columns →
      e.passes s.columns (s.assign column value sel r) = true) :
    s.Admits (rows.map (s.assign column value sel)) := by
  constructor
  · intro x hx
    obtain ⟨r, hr, rfl⟩ := List.mem_map.1 hx
    obtain ⟨hlength, hold⟩ := h.1 r hr
    refine ⟨?_, fun e he => ?_⟩
    · unfold Shape.assign
      split_ifs <;> simp [hlength]
    · by_cases hread : column ∈ e.columns
      · exact hchecks r hr e he hread
      · have := hold e he
        unfold Shape.assign
        split_ifs
        · simpa only [Expr.passes, Expr.eval_set hcolumn hread] using this
        · exact this
  · intro c hc
    have hne : c ≠ column := fun heq => hunique (heq ▸ hc)
    have hmap : (rows.map (s.assign column value sel)).map (field s.columns c) =
        rows.map (field s.columns c) := by
      rw [List.map_map]
      refine List.map_congr_left fun r _ => ?_
      simp only [Function.comp_apply, Shape.assign]
      split_ifs
      · exact field_set hcolumn hne r _
      · rfl
    rw [hmap]
    exact h.2 c hc

/-! ### Databases -/

section Databases

variable {ι : Type}

/-- A relation of the schema table: a table or an index, which share one set of names. -/
inductive Relation (ι : Type)
  | table (t : Table)
  | index (on : ι) (columns : List String)

/-- The relations by name, and the triggers with their tables. -/
structure Database (ι : Type) where
  relations : ι → Option (Relation ι)
  triggers : ι → Option ι

namespace Database

/-- The database of a new file. -/
def empty : Database ι := ⟨fun _ => none, fun _ => none⟩

/-- The table of a name. -/
def table? (db : Database ι) (name : ι) : Option Table :=
  match db.relations name with
  | some (.table t) => some t
  | _ => none

theorem table?_eq_some {db : Database ι} {name : ι} {t : Table} :
    db.table? name = some t ↔ db.relations name = some (.table t) := by
  unfold table?
  rcases db.relations name with _ | t' | _ <;> simp

variable [DecidableEq ι]

/-- A relation under a name. -/
def put (db : Database ι) (name : ι) (r : Relation ι) : Database ι :=
  { db with relations := Function.update db.relations name (some r) }

theorem table?_put_self (db : Database ι) (name : ι) (t : Table) :
    (db.put name (.table t)).table? name = some t := by
  simp [table?, put]

theorem table?_put_of_ne (db : Database ι) {name other : ι} (h : other ≠ name) (r : Relation ι) :
    (db.put name r).table? other = db.table? other := by
  simp [table?, put, Function.update_of_ne h]

end Database

/-- An index on the table `old` follows it to `new`. -/
def Relation.retarget [DecidableEq ι] (old new : ι) : Relation ι → Relation ι
  | .table t => .table t
  | .index on columns => .index (if on = old then new else on) columns

/-- The statements of the scripts. -/
inductive Statement (ι : Type)
  | createTable (name : ι) (shape : Shape)
  | createIndex (name on : ι) (columns : List String)
  | createTrigger (name on : ι)
  | insert (table : ι) (columns : List String) (values : Row)
  | renameTable (old new : ι)
  | addColumn (table : ι) (column : String) (default : Value) (checks : List Expr)
  | update (table : ι) (column : String) (value sel : Expr)

variable [DecidableEq ι]

/-- One statement: refused, or the next database. -/
def Statement.exec (db : Database ι) : Statement ι → Option (Database ι)
  | createTable name shape =>
    if (db.relations name).isSome then none else some (db.put name (.table (.empty shape)))
  | createIndex name on columns => do
    let t ← db.table? on
    if (db.relations name).isSome || !columns.all (· ∈ t.shape.columns) then none
    else some (db.put name (.index on columns))
  | createTrigger name on => do
    let _ ← db.table? on
    if (db.triggers name).isSome then none
    else some { db with triggers := Function.update db.triggers name (some on) }
  | insert table columns values => do
    let t ← db.table? table
    if !columns.all (· ∈ t.shape.columns) then none
    else
      let t' ← Table.ofRows? t.shape (t.rows ++ [t.shape.fill columns values])
      some (db.put table (.table t'))
  | renameTable old new => do
    let t ← db.table? old
    if (db.relations new).isSome then none
    else
      let relations name := (db.relations name).map (Relation.retarget old new)
      some ⟨Function.update (Function.update relations old none) new (some (.table t)),
        fun name => (db.triggers name).map fun on => if on = old then new else on⟩
  | addColumn table column default checks => do
    let t ← db.table? table
    if column ∈ t.shape.columns then none
    else
      let t' ← Table.ofRows? (t.shape.widen column checks) (t.rows.map (· ++ [default]))
      some (db.put table (.table t'))
  | update table column value sel => do
    let t ← db.table? table
    if column ∈ t.shape.columns then
      let t' ← Table.ofRows? t.shape (t.rows.map (t.shape.assign column value sel))
      some (db.put table (.table t'))
    else none

/-- A script, statement by statement. -/
def execAll : List (Statement ι) → Database ι → Option (Database ι)
  | [], db => some db
  | st :: script, db => (st.exec db).bind (execAll script)

/-! ### Schemas -/

/-- A relation without its rows. -/
inductive Form (ι : Type)
  | table (s : Shape)
  | index (on : ι) (columns : List String)
  deriving DecidableEq

/-- A database without its rows. -/
@[ext] structure Schema (ι : Type) where
  relations : ι → Option (Form ι)
  triggers : ι → Option ι

/-- No relation. -/
def Schema.empty : Schema ι := ⟨fun _ => none, fun _ => none⟩

/-- A relation without its rows. -/
def Relation.form : Relation ι → Form ι
  | .table t => .table t.shape
  | .index on columns => .index on columns

/-- The schema of a database. -/
def Database.schema (db : Database ι) : Schema ι :=
  ⟨fun name => (db.relations name).map Relation.form, db.triggers⟩

/-- A database of the schema, with these rows where they meet the constraints. -/
def Schema.filled (σ : Schema ι) (rows : ι → List Row) : Database ι where
  relations name := (σ.relations name).map fun
    | .table s =>
      .table (if h : s.Admits (rows name) then ⟨s, rows name, h⟩ else ⟨s, [], s.admits_nil⟩)
    | .index on columns => .index on columns
  triggers := σ.triggers

omit [DecidableEq ι] in
theorem Schema.schema_filled (σ : Schema ι) (rows : ι → List Row) : (σ.filled rows).schema = σ := by
  refine Schema.ext (funext fun name => ?_) rfl
  show ((σ.relations name).map _).map _ = σ.relations name
  cases σ.relations name with
  | none => rfl
  | some form =>
    cases form with
    | index => rfl
    | table s =>
      simp only [Option.map_some, Relation.form]
      split_ifs <;> rfl

/-- The shape of the table with this name. -/
def Schema.shape? (σ : Schema ι) (name : ι) : Option Shape :=
  match σ.relations name with
  | some (.table s) => some s
  | _ => none

/-- A relation under a name. -/
def Schema.put (σ : Schema ι) (name : ι) (f : Form ι) : Schema ι :=
  { σ with relations := Function.update σ.relations name (some f) }

/-- The table of an index gets another name. -/
def Form.retarget (old new : ι) : Form ι → Form ι
  | .table s => .table s
  | .index on columns => .index (if on = old then new else on) columns

/-- What a statement does to the schema. -/
def Statement.declare (σ : Schema ι) : Statement ι → Option (Schema ι)
  | createTable name shape =>
    if (σ.relations name).isSome then none else some (σ.put name (.table shape))
  | createIndex name on columns => do
    let s ← σ.shape? on
    if (σ.relations name).isSome || !columns.all (· ∈ s.columns) then none
    else some (σ.put name (.index on columns))
  | createTrigger name on => do
    let _ ← σ.shape? on
    if (σ.triggers name).isSome then none
    else some { σ with triggers := Function.update σ.triggers name (some on) }
  | insert table columns _ => do
    let s ← σ.shape? table
    if !columns.all (· ∈ s.columns) then none else some (σ.put table (.table s))
  | renameTable old new => do
    let s ← σ.shape? old
    if (σ.relations new).isSome then none
    else
      let relations name := (σ.relations name).map (Form.retarget old new)
      some ⟨Function.update (Function.update relations old none) new (some (.table s)),
        fun name => (σ.triggers name).map fun on => if on = old then new else on⟩
  | addColumn table column _ checks => do
    let s ← σ.shape? table
    if column ∈ s.columns then none else some (σ.put table (.table (s.widen column checks)))
  | update table column _ _ => do
    let s ← σ.shape? table
    if column ∈ s.columns then some (σ.put table (.table s)) else none

/-- What a script does to the schema. -/
def declareAll : List (Statement ι) → Schema ι → Option (Schema ι)
  | [], σ => some σ
  | st :: script, σ => (st.declare σ).bind (declareAll script)

/-- The rows that a statement leaves in the table it writes meet its constraints. -/
def Statement.Fits (db : Database ι) : Statement ι → Prop
  | insert table columns values =>
    ∀ t, db.table? table = some t → t.shape.Admits (t.rows ++ [t.shape.fill columns values])
  | addColumn table column default checks =>
    ∀ t, db.table? table = some t →
      (t.shape.widen column checks).Admits (t.rows.map (· ++ [default]))
  | update table column value sel =>
    ∀ t, db.table? table = some t → t.shape.Admits (t.rows.map (t.shape.assign column value sel))
  | _ => True

omit [DecidableEq ι] in
theorem shape?_schema (db : Database ι) (name : ι) :
    db.schema.shape? name = (db.table? name).map Table.shape := by
  simp only [Schema.shape?, Database.table?, Database.schema]
  rcases db.relations name with _ | t | _ <;> rfl

omit [DecidableEq ι] in
theorem isSome_schema (db : Database ι) (name : ι) :
    (db.schema.relations name).isSome = (db.relations name).isSome := by
  simp [Database.schema]

theorem schema_put (db : Database ι) (name : ι) (r : Relation ι) :
    (db.put name r).schema = db.schema.put name r.form := by
  ext other
  · simp only [Database.schema, Database.put, Schema.put, Function.update_apply]
    split_ifs <;> rfl
  · rfl

/-- A table that is written again, with rows that fit. -/
theorem map_schema_rewrite {db : Database ι} {name : ι} {s : Shape} {rows : List Row}
    (h : s.Admits rows) :
    ((Table.ofRows? s rows).bind fun t => some (db.put name (.table t))).map Database.schema =
      some (db.schema.put name (.table s)) := by
  obtain ⟨t, ht⟩ := Option.isSome_iff_exists.1 (Table.ofRows?_isSome.2 h)
  rw [ht, Option.bind_some, Option.map_some, schema_put, ← (Table.ofRows?_eq_some.1 ht).1]
  rfl

/-- **A statement acts on the schema alone**, as long as its rows fit. -/
theorem map_schema_exec {db : Database ι} {st : Statement ι} (hfits : st.Fits db) :
    (st.exec db).map Database.schema = st.declare db.schema := by
  -- each check looks at names and shapes only, and what is put back has the declared shape
  cases st with
  | createTable name shape =>
    simp only [Statement.exec, Statement.declare, isSome_schema]
    split_ifs
    · rfl
    · simp only [Option.map_some, schema_put]
      rfl
  | createIndex name on columns =>
    simp only [Statement.exec, Statement.declare, isSome_schema, shape?_schema]
    cases db.table? on with
    | none => rfl
    | some t =>
      simp only [Option.bind_eq_bind, Option.bind_some, Option.map_some]
      split_ifs
      · rfl
      · simp only [Option.map_some, schema_put]
        rfl
  | createTrigger name on =>
    simp only [Statement.exec, Statement.declare, shape?_schema]
    cases db.table? on with
    | none => rfl
    | some t =>
      simp only [Option.bind_eq_bind, Option.bind_some, Option.map_some,
        show db.schema.triggers = db.triggers from rfl]
      split_ifs <;> rfl
  | insert table columns values =>
    simp only [Statement.exec, Statement.declare, shape?_schema]
    cases ht : db.table? table with
    | none => rfl
    | some t =>
      simp only [Option.bind_eq_bind, Option.bind_some, Option.map_some]
      split_ifs
      · rfl
      · exact map_schema_rewrite (hfits t ht)
  | renameTable old new =>
    simp only [Statement.exec, Statement.declare, shape?_schema, isSome_schema]
    cases db.table? old with
    | none => rfl
    | some t =>
      simp only [Option.bind_eq_bind, Option.bind_some, Option.map_some]
      split_ifs
      · rfl
      · simp only [Option.map_some, Option.some.injEq]
        -- its indexes and triggers follow it to the new name
        ext name
        · simp only [Database.schema, Function.update_apply]
          split_ifs
          · rfl
          · simp
          · rcases db.relations name with _ | t | ⟨on, columns⟩ <;> rfl
        · rfl
  | addColumn table column default checks =>
    simp only [Statement.exec, Statement.declare, shape?_schema]
    cases ht : db.table? table with
    | none => rfl
    | some t =>
      simp only [Option.bind_eq_bind, Option.bind_some, Option.map_some]
      split_ifs
      · rfl
      · exact map_schema_rewrite (hfits t ht)
  | update table column value sel =>
    simp only [Statement.exec, Statement.declare, shape?_schema]
    cases ht : db.table? table with
    | none => rfl
    | some t =>
      simp only [Option.bind_eq_bind, Option.bind_some, Option.map_some]
      split_ifs
      · exact map_schema_rewrite (hfits t ht)
      · rfl

/-- The tables that a statement rewrites. -/
def Statement.writes : Statement ι → List ι
  | createTable .. | createIndex .. | createTrigger .. => []
  | insert table .. | addColumn table .. | update table .. => [table]
  | renameTable old _ => [old]

/-- A statement leaves the tables that it does not write. -/
theorem table?_exec {db db' : Database ι} {st : Statement ι} {name : ι} {t : Table}
    (h : st.exec db = some db') (hname : name ∉ st.writes) (ht : db.table? name = some t) :
    db'.table? name = some t := by
  have hrel := Database.table?_eq_some.1 ht
  have hput : ∀ {other : ι} {r : Relation ι}, ¬ (db.relations other).isSome = true →
      (db.put other r).table? name = some t := by
    intro other r hfree
    rwa [Database.table?_put_of_ne]
    rintro rfl
    simp [hrel] at hfree
  -- what is created takes a free name, so it is not in the place of the table
  cases st with
  | createTable other shape =>
    simp only [Statement.exec, Option.ite_none_left_eq_some, Option.some.injEq] at h
    obtain ⟨hfree, rfl⟩ := h
    exact hput hfree
  | createIndex other on columns =>
    simp only [Statement.exec, Option.bind_eq_bind, Option.bind_eq_some_iff,
      Option.ite_none_left_eq_some, Option.some.injEq, Bool.or_eq_true, not_or] at h
    obtain ⟨_, -, ⟨hfree, -⟩, rfl⟩ := h
    exact hput hfree
  | createTrigger other on =>
    simp only [Statement.exec, Option.bind_eq_bind, Option.bind_eq_some_iff,
      Option.ite_none_left_eq_some, Option.some.injEq] at h
    obtain ⟨_, -, -, rfl⟩ := h
    exact ht
  | insert table columns values | addColumn table column default checks
  | update table column value sel =>
    simp only [Statement.exec, Option.bind_eq_bind, Option.bind_eq_some_iff,
      Option.ite_none_left_eq_some, Option.ite_none_right_eq_some, Option.some.injEq] at h
    obtain ⟨_, -, -, _, -, rfl⟩ := h
    rwa [Database.table?_put_of_ne _ (fun h => hname (List.mem_singleton.2 h))]
  | renameTable old new =>
    simp only [Statement.exec, Option.bind_eq_bind, Option.bind_eq_some_iff,
      Option.ite_none_left_eq_some, Option.some.injEq] at h
    obtain ⟨_, -, hfree, rfl⟩ := h
    have hnew : name ≠ new := by
      rintro rfl
      simp [hrel] at hfree
    have hold : name ≠ old := fun h => hname (List.mem_singleton.2 h)
    simp [Database.table?, Function.update_of_ne hnew, Function.update_of_ne hold, hrel,
      Relation.retarget]

/-! What the statements that write a table leave in it. -/

theorem table?_insert {db db' : Database ι} {name : ι} {columns : List String} {values : Row}
    {t : Table} (h : (Statement.insert name columns values).exec db = some db')
    (ht : db.table? name = some t) :
    ∃ t', db'.table? name = some t' ∧ t'.shape = t.shape ∧
      t'.rows = t.rows ++ [t.shape.fill columns values] := by
  simp only [Statement.exec, ht, Option.bind_eq_bind, Option.bind_some,
    Option.ite_none_left_eq_some, Option.bind_eq_some_iff, Option.some.injEq] at h
  obtain ⟨-, t', ht', rfl⟩ := h
  exact ⟨t', Database.table?_put_self _ _ _, Table.ofRows?_eq_some.1 ht'⟩

theorem table?_addColumn {db db' : Database ι} {name : ι} {column : String} {default : Value}
    {checks : List Expr} {t : Table}
    (h : (Statement.addColumn name column default checks).exec db = some db')
    (ht : db.table? name = some t) :
    ∃ t', db'.table? name = some t' ∧ t'.shape = t.shape.widen column checks ∧
      t'.rows = t.rows.map (· ++ [default]) := by
  simp only [Statement.exec, ht, Option.bind_eq_bind, Option.bind_some,
    Option.ite_none_left_eq_some, Option.bind_eq_some_iff, Option.some.injEq] at h
  obtain ⟨-, t', ht', rfl⟩ := h
  exact ⟨t', Database.table?_put_self _ _ _, Table.ofRows?_eq_some.1 ht'⟩

theorem table?_update {db db' : Database ι} {name : ι} {column : String} {value sel : Expr}
    {t : Table} (h : (Statement.update name column value sel).exec db = some db')
    (ht : db.table? name = some t) :
    ∃ t', db'.table? name = some t' ∧ t'.shape = t.shape ∧
      t'.rows = t.rows.map (t.shape.assign column value sel) := by
  simp only [Statement.exec, ht, Option.bind_eq_bind, Option.bind_some,
    Option.ite_none_right_eq_some, Option.bind_eq_some_iff, Option.some.injEq] at h
  obtain ⟨-, t', ht', rfl⟩ := h
  exact ⟨t', Database.table?_put_self _ _ _, Table.ofRows?_eq_some.1 ht'⟩

theorem table?_renameTable {db db' : Database ι} {old new : ι} {t : Table}
    (h : (Statement.renameTable old new).exec db = some db') (ht : db.table? old = some t) :
    db'.table? new = some t := by
  simp only [Statement.exec, ht, Option.bind_eq_bind, Option.bind_some,
    Option.ite_none_left_eq_some, Option.some.injEq] at h
  obtain ⟨-, rfl⟩ := h
  simp [Database.table?]

theorem table?_createTable {db db' : Database ι} {name : ι} {shape : Shape}
    (h : (Statement.createTable name shape).exec db = some db') :
    db'.table? name = some (.empty shape) := by
  simp only [Statement.exec, Option.ite_none_left_eq_some, Option.some.injEq] at h
  obtain ⟨-, rfl⟩ := h
  exact Database.table?_put_self _ _ _

/-- An insert leaves the schema. -/
theorem declare_insert {σ σ' : Schema ι} {name : ι} {columns : List String} {values : Row}
    (h : (Statement.insert name columns values).declare σ = some σ') : σ' = σ := by
  simp only [Statement.declare, Option.bind_eq_bind, Option.bind_eq_some_iff,
    Option.ite_none_left_eq_some, Option.some.injEq] at h
  obtain ⟨s, hs, -, rfl⟩ := h
  have hrel : σ.relations name = some (.table s) := by
    unfold Schema.shape? at hs
    split at hs
    · rename_i s' hs'
      cases hs
      exact hs'
    · cases hs
  ext other
  · simp only [Schema.put, Function.update_apply]
    split_ifs with hother
    · rw [hother, hrel]
    · rfl
  · rfl

/-! ### Scripts -/

/-- Every statement of the script fits when its turn comes. -/
def FitsAll : List (Statement ι) → Database ι → Prop
  | [], _ => True
  | st :: script, db => st.Fits db ∧ ∀ db', st.exec db = some db' → FitsAll script db'

theorem map_schema_execAll {script : List (Statement ι)} {db : Database ι}
    (hfits : FitsAll script db) :
    (execAll script db).map Database.schema = declareAll script db.schema := by
  induction script generalizing db with
  | nil => rfl
  | cons st script ih =>
    have hst := map_schema_exec hfits.1
    simp only [execAll, declareAll, ← hst]
    cases hexec : st.exec db with
    | none => rfl
    | some db' => exact ih (hfits.2 db' hexec)

theorem table?_execAll {script : List (Statement ι)} {db db' : Database ι} {name : ι} {t : Table}
    (h : execAll script db = some db') (hname : ∀ st ∈ script, name ∉ st.writes)
    (ht : db.table? name = some t) : db'.table? name = some t := by
  induction script generalizing db with
  | nil =>
    cases h
    exact ht
  | cons st script ih =>
    rw [List.forall_mem_cons] at hname
    obtain ⟨mid, hst, hrest⟩ := Option.bind_eq_some_iff.1 h
    exact ih hrest hname.2 (table?_exec hst hname.1 ht)

/-- Every statement of the script fits, and what the script leaves has the property. -/
def Leads (script : List (Statement ι)) (db : Database ι) (P : Database ι → Prop) : Prop :=
  FitsAll script db ∧ ∀ db', execAll script db = some db' → P db'

theorem leads_nil {db : Database ι} {P : Database ι → Prop} (h : P db) : Leads [] db P :=
  ⟨trivial, fun _ hdb => Option.some.inj hdb ▸ h⟩

theorem leads_cons {st : Statement ι} {script : List (Statement ι)} {db : Database ι}
    {P : Database ι → Prop} (hfits : st.Fits db)
    (h : ∀ db', st.exec db = some db' → Leads script db' P) : Leads (st :: script) db P := by
  refine ⟨⟨hfits, fun db' hst => (h db' hst).1⟩, fun db'' hall => ?_⟩
  obtain ⟨db', hst, hrest⟩ := Option.bind_eq_some_iff.1 hall
  exact (h db' hst).2 db'' hrest

/-- A statement that only creates. -/
def Statement.creates : Statement ι → Bool
  | createTable .. | createIndex .. | createTrigger .. => true
  | _ => false

/-- A script that only creates fits every database. -/
theorem fitsAll_of_creates {script : List (Statement ι)}
    (h : ∀ st ∈ script, st.creates = true) (db : Database ι) : FitsAll script db := by
  induction script generalizing db with
  | nil => trivial
  | cons st script ih =>
    rw [List.forall_mem_cons] at h
    refine ⟨?_, fun db' _ => ih h.2 db'⟩
    cases st <;> first | trivial | cases h.1

/-! ### Queries -/

/-- `SELECT COUNT(*) FROM table WHERE sel`. -/
def countWhere (table : ι) (sel : Expr) (db : Database ι) : Option ℕ :=
  (db.table? table).bind fun t =>
    if sel.columns.all (· ∈ t.shape.columns) then
      some (t.rows.countP fun r => sel.selects t.shape.columns r)
    else none

/-- `SELECT column FROM table WHERE sel`, read as one optional row with a blob in it. -/
def selectBlob (table : ι) (column : String) (sel : Expr) (db : Database ι) :
    Option (Option (List UInt8)) :=
  (db.table? table).bind fun t =>
    if (column :: sel.columns).all (· ∈ t.shape.columns) then
      match t.rows.find? fun r => sel.selects t.shape.columns r with
      | none => some none
      | some r =>
        match field t.shape.columns column r with
        | .blob bytes => some (some bytes)
        | _ => none
    else none

/-! ### Transactions -/

/-- A transaction in progress: how many statements were carried out, and what they left. -/
structure Session (ι : Type) where
  executed : ℕ
  database : Database ι

/-- A part of a transaction, which fails or answers. -/
abbrev Action (ι α : Type) := StateT (Session ι) Option α

variable {α β : Type}

omit [DecidableEq ι] in
theorem Action.bind_eq_some {m : Action ι α} {f : α → Action ι β} {s : Session ι}
    {p : β × Session ι} :
    (m >>= f) s = some p ↔ ∃ q, m s = some q ∧ f q.1 q.2 = some p :=
  Option.bind_eq_some_iff

omit [DecidableEq ι] in
theorem Action.bind_apply (m : Action ι α) (f : α → Action ι β) (s : Session ι) :
    (m >>= f) s = (m s).bind fun q => f q.1 q.2 := rfl

/-- One statement of a transaction; the `n`-th one fails when `fails n`. -/
def statement (fails : ℕ → Bool) (f : Database ι → Option (α × Database ι)) : Action ι α :=
  fun s =>
    if fails s.executed then none
    else (f s.database).map fun p => (p.1, ⟨s.executed + 1, p.2⟩)

/-- A read as a statement that may fail. -/
def query (fails : ℕ → Bool) (f : Database ι → Option α) : Action ι α :=
  statement fails fun db => (f db).map fun a => (a, db)

/-- A statement that may fail. -/
def execute (fails : ℕ → Bool) (st : Statement ι) : Action ι Unit :=
  statement fails fun db => (st.exec db).map fun db' => ((), db')

/-- Statements one after the other. -/
def executeBatch (fails : ℕ → Bool) : List (Statement ι) → Action ι Unit
  | [] => pure ()
  | st :: script => do
    execute fails st
    executeBatch fails script

/-- No statement fails. -/
def never : ℕ → Bool := fun _ => false

/-- An answer of the action means that it is its answer without failures, and that none of its
statements failed. -/
def Steady (m : (ℕ → Bool) → Action ι α) : Prop :=
  ∀ fails s p, m fails s = some p ↔
    m never s = some p ∧ s.executed ≤ p.2.executed ∧
      ∀ i, s.executed ≤ i → i < p.2.executed → fails i = false

omit [DecidableEq ι] in
theorem steady_pure (a : α) : Steady (fun _ => (pure a : Action ι α)) := by
  intro fails s p
  refine ⟨fun h => ⟨h, ?_⟩, fun h => h.1⟩
  cases h
  exact ⟨le_rfl, fun i hle hlt => absurd hle (not_le.2 hlt)⟩

omit [DecidableEq ι] in
theorem steady_failure : Steady (fun _ => (failure : Action ι α)) :=
  fun _ _ _ => ⟨nofun, fun h => h.1⟩

omit [DecidableEq ι] in
theorem steady_statement (f : Database ι → Option (α × Database ι)) :
    Steady (fun fails => statement fails f) := by
  intro fails s p
  simp only [statement, never, Bool.false_eq_true, if_false, Option.ite_none_left_eq_some,
    Option.map_eq_some_iff, Bool.not_eq_true]
  constructor
  · rintro ⟨hfails, q, hq, rfl⟩
    refine ⟨⟨q, hq, rfl⟩, Nat.le_succ _, fun i hle hlt => ?_⟩
    obtain rfl : i = s.executed := by
      simp only at hlt
      omega
    exact hfails
  · rintro ⟨⟨q, hq, rfl⟩, -, hfails⟩
    exact ⟨hfails _ le_rfl (Nat.lt_succ_self _), q, hq, rfl⟩

omit [DecidableEq ι] in
theorem steady_query (f : Database ι → Option α) : Steady (fun fails => query fails f) :=
  steady_statement _

omit [DecidableEq ι] in
theorem Steady.bind {m : (ℕ → Bool) → Action ι α} {f : (ℕ → Bool) → α → Action ι β}
    (hm : Steady m) (hf : ∀ a, Steady (fun fails => f fails a)) :
    Steady (fun fails => m fails >>= f fails) := by
  intro fails s p
  simp only [Action.bind_eq_some]
  constructor
  · rintro ⟨q, hq, hp⟩
    obtain ⟨hq, hle, hfirst⟩ := (hm _ _ _).1 hq
    obtain ⟨hp, hle', hsecond⟩ := (hf _ _ _ _).1 hp
    refine ⟨⟨q, hq, hp⟩, hle.trans hle', fun i hi hlt => ?_⟩
    by_cases hiq : i < q.2.executed
    · exact hfirst i hi hiq
    · exact hsecond i (not_lt.1 hiq) hlt
  · rintro ⟨⟨q, hq, hp⟩, -, hfails⟩
    obtain ⟨-, hle, -⟩ := (hm _ _ _).1 hq
    obtain ⟨-, hle', -⟩ := (hf _ _ _ _).1 hp
    exact ⟨q, (hm _ _ _).2 ⟨hq, hle, fun i hi hlt => hfails i hi (hlt.trans_le hle')⟩,
      (hf _ _ _ _).2 ⟨hp, hle', fun i hi hlt => hfails i (hle.trans hi) hlt⟩⟩

omit [DecidableEq ι] in
theorem query_never (f : Database ι → Option α) (s : Session ι) :
    query never f s = (f s.database).map fun a => (a, ⟨s.executed + 1, s.database⟩) := by
  simp only [query, statement, never, Bool.false_eq_true, if_false, Option.map_map]
  rfl

theorem execute_never (st : Statement ι) (s : Session ι) :
    execute never st s = (st.exec s.database).map fun db => ((), ⟨s.executed + 1, db⟩) := by
  simp only [execute, statement, never, Bool.false_eq_true, if_false, Option.map_map]
  rfl

omit [DecidableEq ι] in
theorem Steady.ite {c : Prop} [Decidable c] {m m' : (ℕ → Bool) → Action ι α} (hm : Steady m)
    (hm' : Steady m') : Steady (fun fails => if c then m fails else m' fails) := by
  by_cases h : c
  · simpa only [h, if_true] using hm
  · simpa only [h, if_false] using hm'

theorem steady_executeBatch (script : List (Statement ι)) :
    Steady (fun fails => executeBatch fails script) := by
  induction script with
  | nil => exact steady_pure ()
  | cons st script ih => exact (steady_statement _).bind fun _ => ih

/-- Without failures a batch is its script. -/
theorem executeBatch_never (script : List (Statement ι)) (s : Session ι) :
    executeBatch never script s =
      (execAll script s.database).map fun db => ((), ⟨s.executed + script.length, db⟩) := by
  induction script generalizing s with
  | nil => rfl
  | cons st script ih =>
    rw [executeBatch, Action.bind_apply, execute_never]
    cases hst : st.exec s.database with
    | none => simp [execAll, hst]
    | some db =>
      simp only [Option.map_some, Option.bind_some, execAll, hst, ih, List.length_cons,
        Nat.add_assoc, Nat.add_comm 1]

end Databases

end Sql
