import Mathlib.Tactic.IntervalCases
import MsgRiver.Store.Migrations

/-!
# Upgrades

A database is at version `k` when its schema is the one that the first `k` scripts declare and its
ledger holds exactly the versions `1, …, k` with their pinned checksums; the rows of all other
tables are arbitrary.
-/

namespace MsgRiver.Store

open Sql

/-! ### The versions -/

/-- The statements of a version. -/
def migrationSql : ℕ → List (Statement Name)
  | 1 => migrationV1Sql
  | 2 => migrationV2Sql
  | 3 => migrationV3Sql
  | 4 => migrationV4Sql
  | 5 => migrationV5Sql
  | _ => []

/-- The checksum that the code pins for a version. -/
def pinnedChecksum : ℕ → List UInt8
  | 1 => migrationV1Checksum
  | 2 => migrationV2Checksum
  | 3 => migrationV3Checksum
  | 4 => migrationV4Checksum
  | 5 => migrationV5Checksum
  | _ => []

/-- The schema after the first `k` scripts. -/
def schemaAt : ℕ → Option (Schema Name)
  | 0 => some .empty
  | k + 1 => (schemaAt k).bind (declareAll (migrationSql (k + 1)))

/-- The version and the checksum of a ledger row. -/
def ledgerEntry (r : Row) : Value × Value :=
  (field ledgerColumns "version" r, field ledgerColumns "checksum" r)

/-- The rows of the ledger. -/
def ledgerRows (db : Database Name) : List Row :=
  match db.table? .schemaMigrations with
  | none => []
  | some t => t.rows

/-- The database holds exactly the migrations `1, …, k`. -/
structure AtVersion (k : ℕ) (db : Database Name) : Prop where
  schema : schemaAt k = some db.schema
  ledger : (ledgerRows db).map ledgerEntry =
    (List.range' 1 k).map fun v => (.integer v, .blob (pinnedChecksum v))

/-! ### The schemas -/

/-- Where the queue is at each version, and that the ledger is there from the first one on. -/
theorem schemaAt_tables :
    (∀ k ≤ 5, (schemaAt k).isSome) ∧
    (∀ k ≤ 5, (schemaAt k).map (·.shape? .schemaMigrations) =
      some (if k = 0 then none else some ledgerShape)) ∧
    (∀ k ≤ 5, (schemaAt k).map (·.shape? .m2Messages) =
      some (if k = 3 then some m2Shape else none)) := by
  decide +kernel

section Versions

variable {k : ℕ} {db : Database Name}

theorem AtVersion.shape?_ledger (h : AtVersion k db) (hk : k ≤ 5) :
    (db.table? .schemaMigrations).map Table.shape = if k = 0 then none else some ledgerShape := by
  have hshape := schemaAt_tables.2.1 k hk
  rw [h.schema, Option.map_some, Option.some.injEq, shape?_schema] at hshape
  exact hshape

theorem AtVersion.shape?_queue (h : AtVersion k db) (hk : k ≤ 5) :
    (db.table? .m2Messages).map Table.shape = if k = 3 then some m2Shape else none := by
  have hshape := schemaAt_tables.2.2 k hk
  rw [h.schema, Option.map_some, Option.some.injEq, shape?_schema] at hshape
  exact hshape

/-- From v1 on there is a ledger. -/
theorem AtVersion.exists_ledger (h : AtVersion k db) (h1 : 1 ≤ k) (hk : k ≤ 5) :
    ∃ t, db.table? .schemaMigrations = some t ∧ t.shape = ledgerShape ∧ ledgerRows db = t.rows := by
  have hshape := h.shape?_ledger hk
  rw [if_neg (by omega), Option.map_eq_some_iff] at hshape
  obtain ⟨t, ht, hshape⟩ := hshape
  exact ⟨t, ht, hshape, by rw [ledgerRows, ht]⟩

/-- The rows of a version. -/
theorem selects_versionIs (version : ℤ) (r : Row) :
    (versionIs version).selects ledgerColumns r = ((ledgerEntry r).1 == .integer version) := by
  unfold Expr.selects versionIs Expr.eval Expr.eval ledgerEntry
  rcases field ledgerColumns "version" r with _ | n | s | bytes
  · rfl
  · by_cases hn : n = version
    · simp [Value.compare, Value.ofBool, hn]
    · simp [Value.compare, Value.ofBool, hn]
  · rfl
  · rfl

/-- What the ledger records for a version. -/
theorem AtVersion.recorded (h : AtVersion k db) (h1 : 1 ≤ k) (hk : k ≤ 5) {v : ℕ} (hv : 1 ≤ v) :
    selectBlob .schemaMigrations "checksum" (versionIs v) db =
      some (if v ≤ k then some (pinnedChecksum v) else none) := by
  obtain ⟨t, ht, hshape, hrows⟩ := h.exists_ledger h1 hk
  have hcolumns : ("checksum" :: (versionIs v).columns).all (· ∈ ledgerColumns) = true := by
    have : (versionIs v).columns = ["version"] := rfl
    rw [this]
    decide
  -- the ledger has the versions in order, so the version is found up to `k`
  have hfind : (t.rows.find? fun r => (ledgerEntry r).1 == .integer v).map ledgerEntry =
      if v ≤ k then some (.integer v, .blob (pinnedChecksum v)) else none := by
    rw [show (fun r => (ledgerEntry r).1 == Value.integer v) =
      (fun e : Value × Value => e.1 == .integer v) ∘ ledgerEntry from rfl, ← List.find?_map,
      ← hrows, h.ledger, List.find?_map]
    have hkeys : ((fun e : Value × Value => e.1 == .integer v) ∘
        fun v => (Value.integer (v : ℕ), Value.blob (pinnedChecksum v))) = (· == v) := by
      funext w
      rw [Bool.eq_iff_iff]
      simp only [Function.comp_apply, beq_iff_eq, Value.integer.injEq]
      omega
    rw [hkeys]
    by_cases hle : v ≤ k
    · have hmem : v ∈ List.range' 1 k := List.mem_range'_1.2 (by omega)
      rw [if_pos hle]
      cases hfound : (List.range' 1 k).find? (· == v) with
      | none => simpa using List.find?_eq_none.1 hfound v hmem
      | some w =>
        have hw := List.find?_some hfound
        rw [beq_iff_eq] at hw
        rw [hw]
        rfl
    · rw [if_neg hle, Option.map_eq_none_iff, List.find?_eq_none]
      intro w hw
      have := List.mem_range'_1.1 hw
      simp only [beq_iff_eq]
      omega
  unfold selectBlob
  rw [ht, Option.bind_some, hshape, show ledgerShape.columns = ledgerColumns from rfl,
    if_pos hcolumns]
  simp only [selects_versionIs]
  by_cases hle : v ≤ k
  · rw [if_pos hle] at hfind ⊢
    obtain ⟨r, hr, hentry⟩ := Option.map_eq_some_iff.1 hfind
    have hchecksum : field ledgerColumns "checksum" r = .blob (pinnedChecksum v) :=
      congrArg Prod.snd hentry
    simp only [hr, hchecksum]
  · rw [if_neg hle, Option.map_eq_none_iff] at hfind
    simp only [hfind, if_neg hle]

/-- The number of ledger rows that a condition on the version selects. -/
theorem AtVersion.counted (h : AtVersion k db) (h1 : 1 ≤ k) (hk : k ≤ 5) {sel : Expr}
    {selected : Value → Bool} (hcolumns : sel.columns.all (· ∈ ledgerColumns) = true)
    (hsel : ∀ r, sel.selects ledgerColumns r = selected (ledgerEntry r).1) :
    countWhere .schemaMigrations sel db =
      some ((List.range' 1 k).countP fun v => selected (.integer (v : ℕ))) := by
  obtain ⟨t, ht, hshape, hrows⟩ := h.exists_ledger h1 hk
  have hversions : t.rows.map (fun r => (ledgerEntry r).1) =
      (List.range' 1 k).map fun v => Value.integer (v : ℕ) := by
    have := congrArg (List.map Prod.fst) h.ledger
    simpa only [List.map_map, hrows, Function.comp_def] using this
  have hcount := congrArg (List.countP selected) hversions
  rw [List.countP_map, List.countP_map] at hcount
  unfold Sql.countWhere
  rw [ht, Option.bind_some, hshape, show ledgerShape.columns = ledgerColumns from rfl,
    if_pos hcolumns]
  simp only [hsel]
  exact congrArg some hcount

/-- A row whose version is not allowed. -/
theorem selects_versionNotIn (allowed : List ℤ) (r : Row) :
    (versionNotIn allowed).selects ledgerColumns r =
      decide ((ledgerEntry r).1 ≠ .null ∧ (ledgerEntry r).1 ∉ allowed.map Value.integer) := by
  unfold Expr.selects versionNotIn Expr.eval Expr.eval ledgerEntry
  generalize allowed.map Value.integer = values
  rcases field ledgerColumns "version" r with _ | n | s | bytes
  · rfl
  all_goals
    simp only [Value.compare, Value.ofBool, ne_eq, decide_not]
    split_ifs <;> simp_all

end Versions

/-! ### The steps without failures -/

section Steps

variable {provenance : MigrationProvenance}

theorem applyVersion_never (v : ℤ) (pinned : List UInt8) (sql : List (Statement Name))
    (s : Session Name) :
    applyVersion never provenance v pinned sql s =
      (selectBlob .schemaMigrations "checksum" (versionIs v) s.database).bind fun
        | some checksum =>
          if checksum = pinned then some ((), ⟨s.executed + 1, s.database⟩) else none
        | none => (execAll sql s.database).bind fun db =>
          ((ledgerInsert provenance v pinned).exec db).map fun db' =>
            ((), ⟨s.executed + 1 + sql.length + 1, db'⟩) := by
  rw [applyVersion, Action.bind_apply, recordedChecksum, query_never]
  generalize selectBlob .schemaMigrations "checksum" (versionIs v) s.database = recorded
  rcases recorded with _ | _ | checksum
  · rfl
  · simp only [Option.map_some, Option.bind_some, Action.bind_apply, executeBatch_never]
    cases execAll sql s.database with
    | none => rfl
    | some db => simp only [Option.map_some, Option.bind_some, execute_never]
  · simp only [Option.map_some, Option.bind_some]
    split_ifs <;> rfl

theorem applyCatalogV1InTransaction_never (s : Session Name) :
    applyCatalogV1InTransaction never provenance s =
      (ledgerText s.database).bind fun
        | some schemaSql =>
          if schemaSql ≠ ledgerSql then none
          else
            (countWhere .schemaMigrations (.literal (.integer 1)) s.database).bind fun count =>
              (selectBlob .schemaMigrations "checksum" (versionIs 1) s.database).bind
                fun checksum =>
                  if count < 1 ∨ checksum ≠ some migrationV1Checksum then none
                  else some ((), ⟨s.executed + 3, s.database⟩)
        | none => (execAll migrationV1Sql s.database).bind fun db =>
          ((ledgerInsert provenance 1 migrationV1Checksum).exec db).map fun db' =>
            ((), ⟨s.executed + 1 + migrationV1Sql.length + 1, db'⟩) := by
  rw [applyCatalogV1InTransaction, Action.bind_apply, query_never]
  generalize ledgerText s.database = text
  -- a ledger that is there is compared and left alone, else it is created
  rcases text with _ | _ | schemaSql
  · rfl
  · simp only [Option.map_some, Option.bind_some, Action.bind_apply, executeBatch_never]
    cases execAll migrationV1Sql s.database with
    | none => rfl
    | some db => simp only [Option.map_some, Option.bind_some, execute_never]
  · simp only [Option.map_some, Option.bind_some]
    by_cases htext : schemaSql ≠ ledgerSql
    · rw [if_pos htext, if_pos htext]
      rfl
    · rw [if_neg htext, if_neg htext]
      simp only [Action.bind_apply, query_never, recordedChecksum]
      cases countWhere .schemaMigrations (.literal (.integer 1)) s.database with
      | none => rfl
      | some count =>
        simp only [Option.map_some, Option.bind_some]
        cases selectBlob .schemaMigrations "checksum" (versionIs 1) s.database with
        | none => rfl
        | some checksum =>
          simp only [Option.map_some, Option.bind_some]
          split_ifs <;> rfl

theorem applyCatalogV2InTransaction_never (allowProductVersions : Bool) (s : Session Name) :
    applyCatalogV2InTransaction never provenance allowProductVersions s =
      (countWhere .schemaMigrations
        (versionNotIn (if allowProductVersions then [1, 2, 3, 4, 5] else [1, 2])) s.database).bind
        fun unknownVersions =>
          if unknownVersions ≠ 0 then none
          else applyVersion never provenance 2 migrationV2Checksum migrationV2Sql
            ⟨s.executed + 1, s.database⟩ := by
  rw [applyCatalogV2InTransaction, Action.bind_apply, query_never]
  cases countWhere .schemaMigrations
    (versionNotIn (if allowProductVersions then [1, 2, 3, 4, 5] else [1, 2])) s.database with
  | none => rfl
  | some unknownVersions =>
    simp only [Option.map_some, Option.bind_some]
    split_ifs <;> rfl

end Steps

/-! ### Recording a version -/

/-- The row that a migration records. -/
def ledgerRow (provenance : MigrationProvenance) (v : ℕ) : Row :=
  [.integer v, .blob (pinnedChecksum v), .blob provenance.binaryIdentity,
    .integer provenance.appliedAtUnixMs.toInt]

theorem field_ledgerColumns (a b c d : Value) :
    field ledgerColumns "version" [a, b, c, d] = a ∧
    field ledgerColumns "checksum" [a, b, c, d] = b ∧
    field ledgerColumns "applied_binary" [a, b, c, d] = c ∧
    field ledgerColumns "applied_at_unix_ms" [a, b, c, d] = d := by
  simp [field, ledgerColumns]

theorem ledgerEntry_ledgerRow (provenance : MigrationProvenance) (v : ℕ) :
    ledgerEntry (ledgerRow provenance v) = (.integer v, .blob (pinnedChecksum v)) := by
  unfold ledgerEntry ledgerRow
  rw [(field_ledgerColumns _ _ _ _).1, (field_ledgerColumns _ _ _ _).2.1]

theorem length_pinnedChecksum : ∀ v ∈ List.range' 1 5, (pinnedChecksum v).length = 32 := by
  decide

theorem fill_ledgerRow (provenance : MigrationProvenance) (v : ℕ) :
    ledgerShape.fill ledgerColumns (ledgerRow provenance v) = ledgerRow provenance v := by
  obtain ⟨hversion, hchecksum, hbinary, happlied⟩ := field_ledgerColumns (.integer v)
    (.blob (pinnedChecksum v)) (.blob provenance.binaryIdentity)
    (.integer provenance.appliedAtUnixMs.toInt)
  simp only [Shape.fill, ledgerRow, show ledgerShape.columns =
    ["version", "checksum", "applied_binary", "applied_at_unix_ms"] from rfl, List.map_cons,
    List.map_nil, hversion, hchecksum, hbinary, happlied]

theorem admitsRow_ledgerRow {provenance : MigrationProvenance}
    (hp : provenance.binaryIdentity ≠ []) {v : ℕ} (hv : v ∈ List.range' 1 5) :
    ledgerShape.AdmitsRow (ledgerRow provenance v) := by
  obtain ⟨hversion, hchecksum, hbinary, happlied⟩ := field_ledgerColumns (.integer v)
    (.blob (pinnedChecksum v)) (.blob provenance.binaryIdentity)
    (.integer provenance.appliedAtUnixMs.toInt)
  have hpos : v ≠ 0 := by
    have := List.mem_range'_1.1 hv
    omega
  have hlength := length_pinnedChecksum v hv
  refine ⟨rfl, fun e he => ?_⟩
  rw [show ledgerShape.columns = ledgerColumns from rfl]
  simp only [ledgerShape, List.mem_cons, List.not_mem_nil, or_false] at he
  rcases he with rfl | rfl | rfl | rfl | rfl | rfl | rfl <;>
    simp [Expr.passes, Expr.eval, ledgerRow, notNull, lengthIs, hversion, hchecksum, hbinary,
      happlied, Value.compare, Value.ofBool, Value.length, Value.le, hlength, hpos, hp]

/-- The ledger before v1 and from it on, with the rows of `ledgerRows`. -/
theorem ledgerRows_eq {db : Database Name} {t : Table} (ht : db.table? .schemaMigrations = some t) :
    ledgerRows db = t.rows := by
  rw [ledgerRows, ht]

/-- A version is recorded in a ledger that ends before it. -/
theorem exists_ledgerInsert {k : ℕ} {db : Database Name} {t : Table}
    {provenance : MigrationProvenance} (hp : provenance.binaryIdentity ≠ []) (hk : k < 5)
    (ht : db.table? .schemaMigrations = some t) (hshape : t.shape = ledgerShape)
    (hentries : t.rows.map ledgerEntry =
      (List.range' 1 k).map fun v => (.integer v, .blob (pinnedChecksum v))) :
    ∃ db', (ledgerInsert provenance (k + 1 : ℕ) (pinnedChecksum (k + 1))).exec db = some db' ∧
      db'.schema = db.schema ∧ ledgerRows db' = t.rows ++ [ledgerRow provenance (k + 1)] ∧
      ∀ name t', name ≠ .schemaMigrations → db.table? name = some t' →
        db'.table? name = some t' := by
  have hfits : (ledgerInsert provenance (k + 1 : ℕ) (pinnedChecksum (k + 1))).Fits db := by
    intro t' ht'
    obtain rfl := Option.some.inj (ht'.symm.trans ht)
    rw [hshape]
    change ledgerShape.Admits (t'.rows ++ [ledgerShape.fill ledgerColumns
      (ledgerRow provenance (k + 1))])
    rw [fill_ledgerRow]
    have hadmitted := t'.admitted
    rw [hshape] at hadmitted
    refine ⟨fun r hr => ?_, fun c hc => ?_⟩
    · rcases List.mem_append.1 hr with hr | hr
      · exact hadmitted.1 r hr
      · rw [List.mem_singleton.1 hr]
        exact admitsRow_ledgerRow hp (List.mem_range'_1.2 (by omega))
    · obtain rfl := List.mem_singleton.1 hc
      -- the versions of the rows are `1, …, k + 1`
      have hversions : (t'.rows ++ [ledgerRow provenance (k + 1)]).map
          (field ledgerColumns "version") =
            (List.range' 1 (k + 1)).map fun v => Value.integer (v : ℕ) := by
        have hold := congrArg (List.map Prod.fst) hentries
        rw [List.map_map, List.map_map] at hold
        rw [List.map_append, List.range'_concat, List.map_append]
        refine congrArg₂ _ hold ?_
        simp only [List.map_cons, List.map_nil, Nat.one_mul, Nat.add_comm 1 k]
        exact congrArg (fun e => [Prod.fst e]) (ledgerEntry_ledgerRow provenance (k + 1))
      rw [show ledgerShape.columns = ledgerColumns from rfl, hversions]
      refine List.Nodup.filter _ (List.Nodup.map ?_ List.nodup_range')
      intro a b hab
      simp only [Value.integer.injEq] at hab
      omega
  have hschema := map_schema_exec hfits
  have hdeclared : ((ledgerInsert provenance (k + 1 : ℕ) (pinnedChecksum (k + 1))).declare
      db.schema).isSome := by
    have hs : db.schema.shape? .schemaMigrations = some ledgerShape := by
      rw [shape?_schema, ht, Option.map_some, hshape]
    simp only [ledgerInsert, Statement.declare, hs, Option.bind_eq_bind, Option.bind_some]
    rw [if_neg (by decide)]
    rfl
  obtain ⟨σ, hσ⟩ := Option.isSome_iff_exists.1 hdeclared
  rw [hσ, Option.map_eq_some_iff] at hschema
  obtain ⟨db', hexec, hdb'⟩ := hschema
  refine ⟨db', hexec, hdb'.trans (declare_insert hσ), ?_, fun name t' hname ht' => ?_⟩
  · obtain ⟨t', ht', -, hrows⟩ := table?_insert hexec ht
    rw [ledgerRows_eq ht', hrows, hshape]
    exact congrArg (fun r => t.rows ++ [r]) (fill_ledgerRow provenance (k + 1))
  · exact table?_exec hexec (fun h => hname (List.mem_singleton.1 h)) ht'

/-! ### The queue in v4 -/

/-- `m3_messages` after its three columns were added. -/
def m3Shape : Shape :=
  ((m2Shape.widen "driver" [notNull "driver", textIn "driver" ["ntfy", "whatsapp"]]).widen
    "destination" [notNull "destination"]).widen "payload" [notNull "payload"]

/-- The columns of the message table after the fourth migration. -/
def m3Columns : List String := m2Columns ++ ["driver"] ++ ["destination"] ++ ["payload"]

/-- A row of `m2_messages` after v4: for ntfy, with its topic as destination. -/
def upgradeRow (r : Row) : Row :=
  r ++ [.text "ntfy"] ++ [field m2Columns "topic" r] ++ [.text ""]

/-- A row of `m2_messages` after its three columns were added. -/
def widenRow (r : Row) : Row := r ++ [.text "ntfy"] ++ [.text ""] ++ [.text ""]

theorem field_m3Columns {r : Row} (hr : r.length = m2Columns.length) (a b c : Value) :
    (∀ name ∈ m2Columns, field m3Columns name (r ++ [a] ++ [b] ++ [c]) = field m2Columns name r) ∧
    field m3Columns "driver" (r ++ [a] ++ [b] ++ [c]) = a ∧
    field m3Columns "destination" (r ++ [a] ++ [b] ++ [c]) = b ∧
    field m3Columns "payload" (r ++ [a] ++ [b] ++ [c]) = c := by
  have hlength : r.length = 12 := hr
  refine ⟨fun name hname => ?_, ?_, ?_, ?_⟩
  · simp only [m3Columns, List.append_assoc]
    exact field_append hname hr _ _
  · rw [field, show m3Columns.idxOf "driver" = 12 by decide +kernel]
    simp [hlength]
  · rw [field, show m3Columns.idxOf "destination" = 13 by decide +kernel]
    simp [hlength]
  · rw [field, show m3Columns.idxOf "payload" = 14 by decide +kernel]
    simp [hlength]

/-- The assignment of v4, on one row. -/
theorem assign_widenRow {r : Row} (hr : r.length = m2Columns.length) :
    m3Shape.assign "destination" (.column "topic")
      (.equal (.column "driver") (.literal (.text "ntfy"))) (widenRow r) = upgradeRow r := by
  obtain ⟨hold, hdriver, -, -⟩ := field_m3Columns hr (.text "ntfy") (.text "") (.text "")
  have hlength : r.length = 12 := hr
  have hselects : Expr.selects m3Columns (widenRow r)
      (.equal (.column "driver") (.literal (.text "ntfy"))) = true := by
    simp only [Expr.selects, Expr.eval, widenRow, hdriver]
    rfl
  unfold Shape.assign
  rw [show m3Shape.columns = m3Columns from rfl, if_pos hselects,
    show m3Columns.idxOf "destination" = 13 by decide +kernel, Expr.eval, widenRow,
    hold "topic" (by decide)]
  simp [upgradeRow, hlength]

theorem passes_notNull {columns : List String} {row : Row} {column : String}
    (h : field columns column row ≠ .null) : (notNull column).passes columns row = true := by
  simp [Expr.passes, notNull, Expr.eval, h, Value.ofBool]

/-- A column `TEXT NOT NULL DEFAULT …` can always be added. -/
theorem admits_widen_notNull {s : Shape} {rows : List Row} (h : s.Admits rows)
    (hscoped : s.Scoped) {column : String} (hcolumn : column ∉ s.columns) (default : String) :
    (s.widen column [notNull column]).Admits (rows.map (· ++ [.text default])) := by
  refine h.widen hscoped fun r hr e he => ?_
  rw [List.mem_singleton.1 he]
  exact passes_notNull (by rw [field_last hcolumn (h.1 r hr).1]; simp)

/-- The script of v4 fits a queue of v3, and rewrites its rows. -/
theorem migrationV4_leads {db : Database Name} {t : Table} (ht : db.table? .m2Messages = some t)
    (hshape : t.shape = m2Shape) :
    Leads migrationV4Sql db fun db' =>
      ∃ t', db'.table? .m3Messages = some t' ∧ t'.shape = m3Shape ∧
        t'.rows = t.rows.map upgradeRow := by
  have hadmitted : m2Shape.Admits t.rows := hshape ▸ t.admitted
  have hlength : ∀ r ∈ t.rows, r.length = m2Columns.length := fun r hr => (hadmitted.1 r hr).1
  obtain ⟨hscoped, hscoped₁, hscoped₂⟩ : m2Shape.Scoped ∧
      (m2Shape.widen "driver" [notNull "driver", textIn "driver" ["ntfy", "whatsapp"]]).Scoped ∧
      ((m2Shape.widen "driver" [notNull "driver", textIn "driver" ["ntfy", "whatsapp"]]).widen
        "destination" [notNull "destination"]).Scoped := by
    decide +kernel
  have hreads : ∀ e ∈ m3Shape.checks, "destination" ∈ e.columns → e = notNull "destination" := by
    decide +kernel
  have htopic : ∀ r ∈ t.rows, field m2Columns "topic" r ≠ .null := by
    intro r hr hnull
    have hpass := (hadmitted.1 r hr).2 (notNull "topic") (by decide +kernel)
    rw [show m2Shape.columns = m2Columns from rfl] at hpass
    simp [Expr.passes, notNull, Expr.eval, hnull, Value.ofBool] at hpass
  -- the three new columns
  have hadmitted₁ : (m2Shape.widen "driver" [notNull "driver",
      textIn "driver" ["ntfy", "whatsapp"]]).Admits (t.rows.map (· ++ [.text "ntfy"])) := by
    refine hadmitted.widen hscoped fun r hr e he => ?_
    have hfield := field_last (show "driver" ∉ m2Columns by decide +kernel) (hlength r hr)
      (.text "ntfy")
    rcases List.mem_cons.1 he with rfl | he
    · exact passes_notNull (by rw [show m2Shape.columns = m2Columns from rfl, hfield]; simp)
    · rw [List.mem_singleton.1 he, textIn, Expr.passes, Expr.eval, Expr.eval,
        show m2Shape.columns = m2Columns from rfl, hfield]
      decide
  have hadmitted₂ := admits_widen_notNull hadmitted₁ hscoped₁
    (show "destination" ∉ _ by decide +kernel) ""
  have hadmitted₃ := admits_widen_notNull hadmitted₂ hscoped₂ (show "payload" ∉ _ by decide +kernel) ""
  refine leads_cons trivial fun db₁ h₁ => ?_
  have ht₁ := table?_renameTable h₁ ht
  refine leads_cons ?_ fun db₂ h₂ => ?_
  · intro t' ht'
    obtain rfl := Option.some.inj (ht'.symm.trans ht₁)
    rw [hshape]
    exact hadmitted₁
  obtain ⟨t₂, ht₂, hshape₂, hrows₂⟩ := table?_addColumn h₂ ht₁
  rw [hshape] at hshape₂
  rw [← hrows₂] at hadmitted₂ hadmitted₃
  refine leads_cons ?_ fun db₃ h₃ => ?_
  · intro t' ht'
    obtain rfl := Option.some.inj (ht'.symm.trans ht₂)
    rw [hshape₂]
    exact hadmitted₂
  obtain ⟨t₃, ht₃, hshape₃, hrows₃⟩ := table?_addColumn h₃ ht₂
  rw [hshape₂] at hshape₃
  rw [← hrows₃] at hadmitted₃
  refine leads_cons ?_ fun db₄ h₄ => ?_
  · intro t' ht'
    obtain rfl := Option.some.inj (ht'.symm.trans ht₃)
    rw [hshape₃]
    exact hadmitted₃
  obtain ⟨t₄, ht₄, hshape₄, hrows₄⟩ := table?_addColumn h₄ ht₃
  rw [hshape₃] at hshape₄
  rw [← hrows₄] at hadmitted₃
  have hwide : t₄.rows = t.rows.map widenRow := by
    rw [hrows₄, hrows₃, hrows₂, List.map_map, List.map_map]
    rfl
  -- the assignment
  have hassign : t₄.rows.map (m3Shape.assign "destination" (.column "topic")
      (.equal (.column "driver") (.literal (.text "ntfy")))) = t.rows.map upgradeRow := by
    rw [hwide, List.map_map]
    exact List.map_congr_left fun r hr => assign_widenRow (hlength r hr)
  refine leads_cons ?_ fun db₅ h₅ => ?_
  · intro t' ht'
    obtain rfl := Option.some.inj (ht'.symm.trans ht₄)
    rw [hshape₄]
    refine Shape.Admits.assign hadmitted₃ (by decide +kernel) (by decide +kernel) ?_
    intro x hx e he hread
    rw [hwide] at hx
    obtain ⟨r, hr, rfl⟩ := List.mem_map.1 hx
    rw [hreads e he hread, show ((m2Shape.widen "driver" _).widen "destination" _).widen "payload"
      _ = m3Shape from rfl, assign_widenRow (hlength r hr)]
    refine passes_notNull ?_
    rw [show m3Shape.columns = m3Columns from rfl, upgradeRow,
      (field_m3Columns (hlength r hr) _ _ _).2.2.1]
    exact htopic r hr
  obtain ⟨t₅, ht₅, hshape₅, hrows₅⟩ := table?_update h₅ ht₄
  refine leads_cons trivial fun db₆ h₆ => leads_nil ?_
  refine ⟨t₅, table?_exec h₆ (List.not_mem_nil) ht₅, hshape₅.trans hshape₄, ?_⟩
  rw [hrows₅, hshape₄]
  exact hassign

theorem migrationV5_leads (db : Database Name) : Leads migrationV5Sql db fun _ => True := by
  refine leads_cons trivial fun db₁ h₁ => leads_cons ?_ fun db₂ _ => ?_
  · intro t ht
    obtain rfl := Option.some.inj (ht.symm.trans (table?_createTable h₁))
    decide +kernel
  · exact ⟨fitsAll_of_creates (by decide) db₂, fun _ _ => trivial⟩

/-! ### One version more -/

/-- What the migrations `vs` leave of a database: the ledger with their rows at its end, the queue,
possibly rewritten by v4, and every other table as it was. -/
structure Upgraded (provenance : MigrationProvenance) (vs : List ℕ) (db db' : Database Name) :
    Prop where
  ledger : ledgerRows db' = ledgerRows db ++ vs.map (ledgerRow provenance)
  queue : ∀ t, db.table? .m2Messages = some t → db'.table? .m2Messages = some t ∨
    ∃ t', db'.table? .m3Messages = some t' ∧ t'.shape = m3Shape ∧ t'.rows = t.rows.map upgradeRow
  kept : ∀ name t, name ≠ .schemaMigrations → name ≠ .m2Messages → db.table? name = some t →
    db'.table? name = some t

theorem Upgraded.refl (provenance : MigrationProvenance) (db : Database Name) :
    Upgraded provenance [] db db :=
  ⟨(List.append_nil _).symm, fun _ ht => Or.inl ht, fun _ _ _ _ ht => ht⟩

theorem Upgraded.trans {provenance : MigrationProvenance} {vs ws : List ℕ}
    {db db' db'' : Database Name} (h₁ : Upgraded provenance vs db db')
    (h₂ : Upgraded provenance ws db' db'') : Upgraded provenance (vs ++ ws) db db'' where
  ledger := by rw [h₂.ledger, h₁.ledger, List.map_append, List.append_assoc]
  queue t ht := by
    rcases h₁.queue t ht with ht' | ⟨t', ht', hshape, hrows⟩
    · exact h₂.queue t ht'
    · exact Or.inr ⟨t', h₂.kept _ t' (by decide) (by decide) ht', hshape, hrows⟩
  kept name t hledger hqueue ht :=
    h₂.kept name t hledger hqueue (h₁.kept name t hledger hqueue ht)

/-- A script writes no table of its version but the queue, which v4 renames. -/
theorem schemaAt_writes : ∀ k < 5, ∀ st ∈ migrationSql (k + 1), ∀ name ∈ st.writes,
    name = .m2Messages ∨ (schemaAt k).map (·.shape? name) = some none := by
  decide +kernel

section Upgrade

variable {k : ℕ} {db : Database Name} {provenance : MigrationProvenance}

/-- What the next script does. -/
theorem AtVersion.leads (h : AtVersion k db) (hk : k < 5) :
    Leads (migrationSql (k + 1)) db fun db' =>
      (∀ t, db.table? .m2Messages = some t → db'.table? .m2Messages = some t ∨
        ∃ t', db'.table? .m3Messages = some t' ∧ t'.shape = m3Shape ∧
          t'.rows = t.rows.map upgradeRow) ∧
      ∀ name t, name ≠ .m2Messages → db.table? name = some t → db'.table? name = some t := by
  have hqueue := h.shape?_queue (Nat.le_of_lt hk)
  have hkept : ∀ db', execAll (migrationSql (k + 1)) db = some db' → ∀ name t,
      name ≠ .m2Messages → db.table? name = some t → db'.table? name = some t := by
    intro db' hall name t hname ht
    refine table?_execAll hall (fun st hst hwrites => ?_) ht
    rcases schemaAt_writes k hk st hst name hwrites with rfl | hnone
    · exact hname rfl
    · rw [h.schema, Option.map_some, Option.some.injEq, shape?_schema, ht] at hnone
      cases hnone
  have hnone : k ≠ 3 → ∀ t, db.table? .m2Messages ≠ some t := by
    intro hne t ht
    rw [if_neg hne, ht] at hqueue
    cases hqueue
  by_cases h3 : k = 3
  · subst h3
    rw [if_pos rfl, Option.map_eq_some_iff] at hqueue
    obtain ⟨t, ht, hshape⟩ := hqueue
    obtain ⟨hfits, hleads⟩ := migrationV4_leads ht hshape
    refine ⟨hfits, fun db' hall => ⟨fun t' ht' => Or.inr ?_, hkept db' hall⟩⟩
    obtain rfl := Option.some.inj (ht'.symm.trans ht)
    exact hleads db' hall
  · refine ⟨?_, fun db' hall => ⟨fun t ht => absurd ht (hnone h3 t), hkept db' hall⟩⟩
    interval_cases k
    · exact fitsAll_of_creates (by decide) db
    · exact fitsAll_of_creates (by decide) db
    · exact fitsAll_of_creates (by decide) db
    · exact absurd rfl h3
    · exact (migrationV5_leads db).1

/-- The next migration is carried out. -/
theorem AtVersion.exists_next (h : AtVersion k db) (hk : k < 5)
    (hp : provenance.binaryIdentity ≠ []) :
    ∃ db₁ db₂, execAll (migrationSql (k + 1)) db = some db₁ ∧
      (ledgerInsert provenance (k + 1 : ℕ) (pinnedChecksum (k + 1))).exec db₁ = some db₂ ∧
      AtVersion (k + 1) db₂ ∧ Upgraded provenance [k + 1] db db₂ := by
  obtain ⟨hfits, hleads⟩ := h.leads hk
  obtain ⟨σ, hσ⟩ := Option.isSome_iff_exists.1 (schemaAt_tables.1 (k + 1) hk)
  have hdeclare : declareAll (migrationSql (k + 1)) db.schema = some σ := by
    rw [schemaAt, h.schema, Option.bind_some] at hσ
    exact hσ
  have hall := map_schema_execAll hfits
  rw [hdeclare, Option.map_eq_some_iff] at hall
  obtain ⟨db₁, hall, hschema⟩ := hall
  obtain ⟨hqueue, hkept⟩ := hleads db₁ hall
  -- the ledger before its next row
  have hledger : ∃ t, db₁.table? .schemaMigrations = some t ∧ t.shape = ledgerShape ∧
      t.rows = ledgerRows db := by
    by_cases h0 : k = 0
    · subst h0
      have hempty : ledgerRows db = [] := List.map_eq_nil_iff.1 h.ledger
      obtain ⟨db₁', hcreate, hrest⟩ := Option.bind_eq_some_iff.1 hall
      cases hrest
      exact ⟨_, table?_createTable hcreate, rfl, hempty.symm⟩
    · obtain ⟨t, ht, hshape, hrows⟩ := h.exists_ledger (by omega) (by omega)
      exact ⟨t, hkept _ t (by decide) ht, hshape, hrows.symm⟩
  obtain ⟨t, ht, hshape, hrows⟩ := hledger
  obtain ⟨db₂, hinsert, hschema', hrows', hkept'⟩ := exists_ledgerInsert hp hk ht hshape
    (by rw [hrows, h.ledger])
  refine ⟨db₁, db₂, hall, hinsert, ⟨?_, ?_⟩, ⟨?_, fun t ht => ?_, ?_⟩⟩
  · rw [hσ, hschema', hschema]
  · rw [hrows', hrows, List.map_append, h.ledger, List.range'_concat, List.map_append]
    simp only [List.map_cons, List.map_nil, ledgerEntry_ledgerRow, Nat.one_mul, Nat.add_comm 1 k]
  · rw [hrows', hrows]
    rfl
  · rcases hqueue t ht with ht' | ⟨t', ht', hshape, hrows⟩
    · exact Or.inl (hkept' _ t (by decide) ht')
    · exact Or.inr ⟨t', hkept' _ t' (by decide) ht', hshape, hrows⟩
  · exact fun name t hne hne' ht => hkept' name t hne (hkept name t hne' ht)

/-- The database `db`, which was at version `k`, after the steps up to `v`. -/
structure Reached (provenance : MigrationProvenance) (k v : ℕ) (db db' : Database Name) : Prop where
  version : AtVersion (max k v) db'
  upgraded : Upgraded provenance (List.range' (k + 1) (v - k)) db db'
  same : v ≤ k → db' = db

theorem Reached.start (h : AtVersion k db) : Reached provenance k 0 db db where
  same _ := rfl
  version := by rwa [Nat.max_zero]
  upgraded := by
    rw [Nat.zero_sub]
    exact .refl provenance db

/-- One step more: a recorded version is skipped, and the next one is carried out. -/
theorem Reached.next {v : ℕ} {db' : Database Name} (h : Reached provenance k v db db') (hv : v < 5)
    (hp : provenance.binaryIdentity ≠ []) :
    (v + 1 ≤ max k v ∧ Reached provenance k (v + 1) db db') ∨
    (max k v = v ∧ ∃ db₁ db₂, execAll (migrationSql (v + 1)) db' = some db₁ ∧
      (ledgerInsert provenance (v + 1 : ℕ) (pinnedChecksum (v + 1))).exec db₁ = some db₂ ∧
      Reached provenance k (v + 1) db db₂) := by
  obtain ⟨hversion, hupgraded, hsame⟩ := h
  by_cases hle : v + 1 ≤ k
  · refine Or.inl ⟨hle.trans (Nat.le_max_left _ _), ?_, ?_, fun _ => hsame (Nat.le_of_succ_le hle)⟩
    · rwa [Nat.max_eq_left hle, ← Nat.max_eq_left (Nat.le_of_succ_le hle)]
    · rwa [Nat.sub_eq_zero_of_le hle, ← Nat.sub_eq_zero_of_le (Nat.le_of_succ_le hle)]
  · have hkv : k ≤ v := by omega
    rw [Nat.max_eq_right hkv] at hversion
    obtain ⟨db₁, db₂, hall, hinsert, hversion', hupgraded'⟩ := hversion.exists_next hv hp
    refine Or.inr ⟨Nat.max_eq_right hkv, db₁, db₂, hall, hinsert, ?_, ?_, fun h => absurd h hle⟩
    · rwa [Nat.max_eq_right (Nat.le_succ_of_le hkv)]
    · have hvs : List.range' (k + 1) (v + 1 - k) = List.range' (k + 1) (v - k) ++ [v + 1] := by
        rw [Nat.succ_sub hkv, List.range'_concat, Nat.one_mul,
          show k + 1 + (v - k) = v + 1 by omega]
      rw [hvs]
      exact hupgraded.trans hupgraded'

/-- The step of a version from v2 on. -/
theorem Reached.applyVersion_next {v : ℕ} {db' : Database Name} (h : Reached provenance k v db db')
    (h1 : 1 ≤ v) (hv : v < 5) (hk : k ≤ 5) (hp : provenance.binaryIdentity ≠ []) (n : ℕ) :
    ∃ n' db'', applyVersion never provenance (v + 1 : ℕ) (pinnedChecksum (v + 1))
        (migrationSql (v + 1)) ⟨n, db'⟩ = some ((), ⟨n', db''⟩) ∧
      Reached provenance k (v + 1) db db'' := by
  have hrecorded := h.version.recorded (by omega) (by omega) (show 1 ≤ v + 1 by omega)
  rcases h.next hv hp with ⟨hle, hnext⟩ | ⟨hmax, db₁, db₂, hall, hinsert, hnext⟩
  · rw [if_pos hle] at hrecorded
    refine ⟨n + 1, db', ?_, hnext⟩
    rw [applyVersion_never, hrecorded, Option.bind_some]
    exact if_pos rfl
  · rw [hmax, if_neg (by omega)] at hrecorded
    refine ⟨n + 1 + (migrationSql (v + 1)).length + 1, db₂, ?_, hnext⟩
    rw [applyVersion_never, hrecorded, Option.bind_some]
    simp only [hall, Option.bind_some, hinsert, Option.map_some]

/-- The step of v1. -/
theorem AtVersion.applyCatalogV1 (h : AtVersion k db) (hk : k ≤ 5)
    (hp : provenance.binaryIdentity ≠ []) (n : ℕ) :
    ∃ n' db', applyCatalogV1InTransaction never provenance ⟨n, db⟩ = some ((), ⟨n', db'⟩) ∧
      Reached provenance k 1 db db' := by
  rcases (Reached.start h).next (show 0 < 5 by omega) hp with
    ⟨hle, hnext⟩ | ⟨hmax, db₁, db₂, hall, hinsert, hnext⟩
  · have h1 : 1 ≤ k := by omega
    obtain ⟨t, ht, hshape, -⟩ := h.exists_ledger h1 hk
    have htext : ledgerText db = some (some ledgerSql) := by
      rw [ledgerText, ht]
      simp only [hshape]
      rfl
    have hcount : countWhere .schemaMigrations (.literal (.integer 1)) db = some k := by
      rw [@AtVersion.counted _ _ h h1 hk _ (fun _ => true) rfl (fun _ => rfl)]
      simp
    have hrecorded := h.recorded h1 hk (Nat.le_refl 1)
    rw [if_pos h1] at hrecorded
    refine ⟨n + 3, db, ?_, hnext⟩
    rw [applyCatalogV1InTransaction_never, htext, Option.bind_some]
    simp only [ne_eq, not_true_eq_false, if_false, hcount, Option.bind_some]
    rw [show ((1 : ℤ)) = ((1 : ℕ) : ℤ) from rfl, hrecorded, Option.bind_some,
      if_neg (by rw [not_or]; exact ⟨by omega, fun h => h rfl⟩)]
  · have h0 : k = 0 := by omega
    subst h0
    have htext : ledgerText db = some none := by
      have hnone := h.shape?_ledger hk
      rw [if_pos rfl, Option.map_eq_none_iff] at hnone
      rw [ledgerText, hnone]
    refine ⟨n + 1 + migrationV1Sql.length + 1, db₂, ?_, hnext⟩
    rw [applyCatalogV1InTransaction_never, htext, Option.bind_some]
    change ((execAll (migrationSql (0 + 1)) db).bind fun db => _) = _
    rw [hall, Option.bind_some]
    change Option.map _ ((ledgerInsert provenance (0 + 1 : ℕ) (pinnedChecksum (0 + 1))).exec db₁) = _
    rw [hinsert]
    rfl

/-- The ledger rows of other versions than the allowed ones. -/
theorem AtVersion.counted_versionNotIn (h : AtVersion k db) (h1 : 1 ≤ k) (hk : k ≤ 5)
    (allowed : List ℤ) :
    countWhere .schemaMigrations (versionNotIn allowed) db =
      some ((List.range' 1 k).countP fun v : ℕ => (v : ℤ) ∉ allowed) := by
  have hcolumns : (versionNotIn allowed).columns.all (· ∈ ledgerColumns) = true := by
    have : (versionNotIn allowed).columns = ["version"] := rfl
    rw [this]
    decide
  rw [@AtVersion.counted _ _ h h1 hk _
    (fun v => decide (v ≠ .null ∧ v ∉ allowed.map Value.integer)) hcolumns
    (selects_versionNotIn allowed)]
  simp

/-- The step of v2, where the entry point allows the versions of the database. -/
theorem Reached.applyCatalogV2 {db' : Database Name} (h : Reached provenance k 1 db db')
    (hp : provenance.binaryIdentity ≠ []) {allowProductVersions : Bool}
    (hk : k ≤ if allowProductVersions then 5 else 2) (n : ℕ) :
    ∃ n' db'', applyCatalogV2InTransaction never provenance allowProductVersions ⟨n, db'⟩ =
        some ((), ⟨n', db''⟩) ∧ Reached provenance k 2 db db'' := by
  have hk5 : k ≤ 5 := by
    cases allowProductVersions
    · exact Nat.le_trans hk (by decide)
    · exact hk
  obtain ⟨n', db'', hstep, hnext⟩ := h.applyVersion_next (Nat.le_refl 1) (by omega) hk5 hp (n + 1)
  refine ⟨n', db'', ?_, hnext⟩
  have hallowed : ∀ v ∈ List.range' 1 (max k 1),
      ¬ (v : ℤ) ∉ (if allowProductVersions then [1, 2, 3, 4, 5] else [1, 2] : List ℤ) := by
    intro v hv
    have := List.mem_range'_1.1 hv
    cases allowProductVersions
    · simp only [Bool.false_eq_true, if_false] at hk ⊢
      simp only [List.mem_cons, List.not_mem_nil, or_false]
      omega
    · simp only [if_true] at hk ⊢
      simp only [List.mem_cons, List.not_mem_nil, or_false]
      omega
  rw [applyCatalogV2InTransaction_never,
    h.version.counted_versionNotIn (Nat.le_max_right k 1) (by omega), Option.bind_some,
    List.countP_eq_zero.2 (by simpa using hallowed), if_neg (fun h => h rfl)]
  exact hstep

/-- The steps of the service. -/
theorem AtVersion.productSteps (h : AtVersion k db) (hk : k ≤ 5)
    (hp : provenance.binaryIdentity ≠ []) :
    ∃ n' db', productSteps never provenance ⟨0, db⟩ = some ((), ⟨n', db'⟩) ∧
      Reached provenance k 5 db db' := by
  obtain ⟨n₁, db₁, h₁, hreached₁⟩ := h.applyCatalogV1 hk hp 0
  obtain ⟨n₂, db₂, h₂, hreached₂⟩ := @Reached.applyCatalogV2 _ _ _ _ hreached₁ hp true hk n₁
  obtain ⟨n₃, db₃, h₃, hreached₃⟩ := hreached₂.applyVersion_next (by omega) (by omega) hk hp n₂
  obtain ⟨n₄, db₄, h₄, hreached₄⟩ := hreached₃.applyVersion_next (by omega) (by omega) hk hp n₃
  obtain ⟨n₅, db₅, h₅, hreached₅⟩ := hreached₄.applyVersion_next (by omega) (by omega) hk hp n₄
  refine ⟨n₅, db₅, ?_, hreached₅⟩
  simp only [Store.productSteps, Action.bind_apply, h₁, h₂, Option.bind_some]
  change (applyVersion never provenance (2 + 1 : ℕ) (pinnedChecksum (2 + 1)) (migrationSql (2 + 1))
    ⟨n₂, db₂⟩).bind _ = _
  rw [h₃, Option.bind_some]
  change (applyVersion never provenance (3 + 1 : ℕ) (pinnedChecksum (3 + 1)) (migrationSql (3 + 1))
    ⟨n₃, db₃⟩).bind _ = _
  rw [h₄, Option.bind_some]
  exact h₅

/-- The steps of maintenance, on the versions that it knows. -/
theorem AtVersion.catalogSteps (h : AtVersion k db) (hk : k ≤ 2)
    (hp : provenance.binaryIdentity ≠ []) :
    ∃ n' db', catalogSteps never provenance ⟨0, db⟩ = some ((), ⟨n', db'⟩) ∧
      Reached provenance k 2 db db' := by
  obtain ⟨n₁, db₁, h₁, hreached₁⟩ := h.applyCatalogV1 (by omega) hp 0
  obtain ⟨n₂, db₂, h₂, hreached₂⟩ := @Reached.applyCatalogV2 _ _ _ _ hreached₁ hp false hk n₁
  refine ⟨n₂, db₂, ?_, hreached₂⟩
  simp only [Store.catalogSteps, Action.bind_apply, h₁, h₂, Option.bind_some]

end Upgrade

end MsgRiver.Store
