import MsgRiver.Store.Catalog

/-!
# Migrations

The two entry points of the migrations: `apply_migrations`, which maintenance calls and which knows
v1 and v2, and `apply_product_migrations`, which the service calls at its start.  Each runs its
steps in one transaction; a step reads the ledger and skips, refuses or executes its script.

Any statement may fail for reasons outside of the database, and so may the beginning and the end of
a transaction (`Faults`).  A transaction that is not committed leaves the database as it was.  The
comparison of the embedded scripts with their pins at the head of `apply_migrations` does not depend
on the database, and holds for the scripts of the catalog; it is left out.
-/

namespace MsgRiver.Store

open Sql

/-- What a caller records with a migration. -/
structure MigrationProvenance where
  binaryIdentity : List UInt8
  appliedAtUnixMs : Int64

/-- `StoreError::Migration`. -/
inductive MigrationError
  | migration
  deriving DecidableEq, Repr

/-- How a migration transaction fails; a failed rollback poisons the connection. -/
inductive MigrationTransactionFailure
  | rejected
  | connectionPoisoned
  deriving DecidableEq, Repr

/-! ### Steps -/

/-- `SELECT sql FROM sqlite_master WHERE type = 'table' AND name = 'schema_migrations'`. -/
def ledgerText (db : Database Name) : Option (Option String) :=
  match db.table? .schemaMigrations with
  | none => some none
  | some t => t.shape.sql.map some

/-- The ledger row of a version. -/
def versionIs (version : ℤ) : Expr := .equal (.column "version") (.literal (.integer version))

/-- `INSERT INTO schema_migrations …`. -/
def ledgerInsert (provenance : MigrationProvenance) (version : ℤ) (checksum : List UInt8) :
    Statement Name :=
  .insert .schemaMigrations ledgerColumns
    [.integer version, .blob checksum, .blob provenance.binaryIdentity,
      .integer provenance.appliedAtUnixMs.toInt]

section Steps

variable (fails : ℕ → Bool) (provenance : MigrationProvenance)

/-- The checksum in the ledger row of a version. -/
def recordedChecksum (version : ℤ) : Action Name (Option (List UInt8)) :=
  query fails (selectBlob .schemaMigrations "checksum" (versionIs version))

/-- The first step: create and record the ledger, or compare it with what is pinned. -/
def applyCatalogV1InTransaction : Action Name Unit := do
  match ← query fails ledgerText with
  | some schemaSql =>
    if schemaSql ≠ ledgerSql then failure
    else
      let count ← query fails (countWhere .schemaMigrations (.literal (.integer 1)))
      let checksum ← recordedChecksum fails 1
      if count < 1 ∨ checksum ≠ some migrationV1Checksum then failure else pure ()
  | none =>
    executeBatch fails migrationV1Sql
    execute fails (ledgerInsert provenance 1 migrationV1Checksum)

/-- The step of one version: skip it when it is recorded with its checksum, refuse another checksum,
and execute and record it otherwise. -/
def applyVersion (version : ℤ) (pinned : List UInt8) (sql : List (Statement Name)) :
    Action Name Unit := do
  match ← recordedChecksum fails version with
  | some checksum => if checksum = pinned then pure () else failure
  | none =>
    executeBatch fails sql
    execute fails (ledgerInsert provenance version pinned)

/-- The version is none of the allowed ones. -/
def versionNotIn (allowed : List ℤ) : Expr := .notIn (.column "version") (allowed.map .integer)

/-- The second step, after the check that the ledger has no unknown version. -/
def applyCatalogV2InTransaction (allowProductVersions : Bool) : Action Name Unit := do
  let allowedVersions := if allowProductVersions then [1, 2, 3, 4, 5] else [1, 2]
  let unknownVersions ← query fails (countWhere .schemaMigrations (versionNotIn allowedVersions))
  -- a binary that does not know every recorded migration installs nothing beside it
  if unknownVersions ≠ 0 then failure
  else applyVersion fails provenance 2 migrationV2Checksum migrationV2Sql

/-- The third step. -/
def applyCatalogV3InTransaction : Action Name Unit :=
  applyVersion fails provenance 3 migrationV3Checksum migrationV3Sql

/-- The fourth step. -/
def applyCatalogV4InTransaction : Action Name Unit :=
  applyVersion fails provenance 4 migrationV4Checksum migrationV4Sql

/-- The fifth step. -/
def applyCatalogV5InTransaction : Action Name Unit :=
  applyVersion fails provenance 5 migrationV5Checksum migrationV5Sql

/-- The steps of `apply_catalog`. -/
def catalogSteps : Action Name Unit := do
  applyCatalogV1InTransaction fails provenance
  applyCatalogV2InTransaction fails provenance false

/-- The steps of `apply_product_catalog`. -/
def productSteps : Action Name Unit := do
  applyCatalogV1InTransaction fails provenance
  applyCatalogV2InTransaction fails provenance true
  applyCatalogV3InTransaction fails provenance
  applyCatalogV4InTransaction fails provenance
  applyCatalogV5InTransaction fails provenance

end Steps

/-! ### Entry points -/

/-- What fails outside of the database: the beginning of the transaction, its `n`-th statement, the
commit, the rollback. -/
structure Faults where
  start : Bool
  statement : ℕ → Bool
  commit : Bool
  rollback : Bool

/-- Nothing fails. -/
def Faults.none : Faults := ⟨false, never, false, false⟩

/-- The steps in one transaction. -/
def inTransaction (faults : Faults) (steps : (ℕ → Bool) → Action Name Unit) (db : Database Name) :
    Except MigrationTransactionFailure Unit × Database Name :=
  if faults.start then (.error .rejected, db)
  else
    match steps faults.statement ⟨0, db⟩ with
    | some (_, session) =>
      if faults.commit then (.error .connectionPoisoned, db) else (.ok (), session.database)
    | Option.none =>
      if faults.rollback then (.error .connectionPoisoned, db) else (.error .rejected, db)

/-- The migrations of the selected state, in one transaction. -/
def applyCatalog (faults : Faults) (provenance : MigrationProvenance) (db : Database Name) :
    Except MigrationTransactionFailure Unit × Database Name :=
  inTransaction faults (fun fails => catalogSteps fails provenance) db

/-- The migrations of the product, in one transaction. -/
def applyProductCatalog (faults : Faults) (provenance : MigrationProvenance) (db : Database Name) :
    Except MigrationTransactionFailure Unit × Database Name :=
  inTransaction faults (fun fails => productSteps fails provenance) db

/-- A store: its connection, which a failed end of a transaction drops, and the database. -/
structure OpenStore where
  connected : Bool
  database : Database Name

/-- An entry point over the catalog that it applies. -/
def OpenStore.migrate
    (catalog : Database Name → Except MigrationTransactionFailure Unit × Database Name)
    (provenance : MigrationProvenance) (store : OpenStore) :
    Except MigrationError Unit × OpenStore :=
  if provenance.binaryIdentity.isEmpty then (.error .migration, store)
  else if !store.connected then (.error .migration, store)
  else
    match catalog store.database with
    | (.ok (), db) => (.ok (), { store with database := db })
    | (.error .rejected, db) => (.error .migration, { store with database := db })
    | (.error .connectionPoisoned, db) => (.error .migration, ⟨false, db⟩)

/-- The entry point for the selected state. -/
def OpenStore.applyMigrations (faults : Faults) (provenance : MigrationProvenance)
    (store : OpenStore) : Except MigrationError Unit × OpenStore :=
  store.migrate (applyCatalog faults provenance) provenance

/-- The entry point for the product. -/
def OpenStore.applyProductMigrations (faults : Faults) (provenance : MigrationProvenance)
    (store : OpenStore) : Except MigrationError Unit × OpenStore :=
  store.migrate (applyProductCatalog faults provenance) provenance

end MsgRiver.Store
