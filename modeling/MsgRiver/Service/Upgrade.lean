import MsgRiver.Service.Dispatch
import MsgRiver.Store.Refusals
import MsgRiver.Store.Rows

/-!
# The store at the start of the service

The service applies the product migrations before it serves.  `migrations_atomic` says what both
entry points do to a database of any version, and what they refuse: the rows of an old queue become
messages for ntfy with their topic as destination, which are due as before and are handed to the
ntfy driver with their topic, title and body.
-/

namespace MsgRiver.Service

open Store Connector Sql

/-- A queue of v3 after the product migrations. -/
structure QueueUpgraded (t t' : Sql.Table) : Prop where
  rows : t'.rows = t.rows.map upgradeRow
  old : ∀ r ∈ t.rows, ∀ column ∈ m2Columns,
    field m3Columns column (upgradeRow r) = field m2Columns column r
  driver : ∀ r ∈ t.rows, field m3Columns "driver" (upgradeRow r) = .text "ntfy"
  destination : ∀ r ∈ t.rows,
    field m3Columns "destination" (upgradeRow r) = field m2Columns "topic" r
  messages : ∀ ms : List Message, t.rows = ms.map Message.legacyRow →
    ∃ queue : RelTable.Table messageSchema,
      queue.rows = ms.map Message.upgraded ∧ t'.rows = queue.rows.map Message.row

theorem queueUpgraded {t t' : Sql.Table} (hshape : t.shape = m2Shape) (hshape' : t'.shape = m3Shape)
    (hrows : t'.rows = t.rows.map upgradeRow) : QueueUpgraded t t' := by
  have hlength : ∀ r ∈ t.rows, r.length = m2Columns.length := by
    intro r hr
    rw [(t.admitted.1 r hr).1, hshape]
    rfl
  have hfields := fun r hr => field_m3Columns (hlength r hr) (.text "ntfy")
    (field m2Columns "topic" r) (.text "")
  refine ⟨hrows, fun r hr => (hfields r hr).1, fun r hr => (hfields r hr).2.1,
    fun r hr => (hfields r hr).2.2.1, fun ms hms => ?_⟩
  have hrows' : t'.rows = (ms.map Message.upgraded).map Message.row := by
    rw [hrows, hms, List.map_map, List.map_map]
    exact List.map_congr_left fun m _ => upgradeRow_legacyRow m
  obtain ⟨queue, hqueue⟩ := exists_queue hshape' hrows'
  exact ⟨queue, hqueue, by rw [hrows', hqueue]⟩

/-- An upgraded message is due when it was, and its driver gets what it held. -/
theorem upgraded_dispatch (config : Config) (m : Message) (now : Int64) (n : UInt8) :
    m.upgraded.due now = m.due now ∧
    handover config (m.upgraded.delivery n) =
      some (config.ntfyDriver, .ntfy m.topic m.title m.body) :=
  ⟨rfl, rfl⟩

section Entry

variable {provenance : MigrationProvenance} {k : ℕ} {db : Database Name}

/-- An entry point whose steps succeed. -/
theorem applyCatalog_none {catalog : Catalog} {n : ℕ} {db' : Database Name}
    (hp : provenance.binaryIdentity ≠ [])
    (h : catalog.steps provenance never ⟨0, db⟩ = some ((), ⟨n, db'⟩)) :
    OpenStore.applyCatalog ⟨true, db⟩ .none provenance catalog = (.ok (), ⟨true, db'⟩) :=
  applyCatalog_ok_iff.2 ⟨hp, rfl, rfl, rfl, ⟨n, db'⟩, h, fun _ _ => rfl, rfl⟩

/-- The product migrations bring every version to v5. -/
theorem applyProductMigrations_at (h : AtVersion k db) (hk : k ≤ 5)
    (hp : provenance.binaryIdentity ≠ []) :
    ∃ db', OpenStore.applyProductMigrations .none provenance ⟨true, db⟩ = (.ok (), ⟨true, db'⟩) ∧
      Reached provenance k 5 db db' := by
  obtain ⟨n, db', hsteps, hreached⟩ := h.productSteps hk hp
  exact ⟨db', @applyCatalog_none _ _ .product _ _ hp hsteps, hreached⟩

/-- Maintenance brings the versions that it knows to v2. -/
theorem applyMigrations_at (h : AtVersion k db) (hk : k ≤ 2)
    (hp : provenance.binaryIdentity ≠ []) :
    ∃ db', OpenStore.applyMigrations .none provenance ⟨true, db⟩ = (.ok (), ⟨true, db'⟩) ∧
      Reached provenance k 2 db db' := by
  obtain ⟨n, db', hsteps, hreached⟩ := h.catalogSteps hk hp
  exact ⟨db', @applyCatalog_none _ _ .selectedState _ _ hp hsteps, hreached⟩

/-- Maintenance refuses a version that it does not know. -/
theorem applyMigrations_refuses (h : AtVersion k db) (h3 : 3 ≤ k) (hk : k ≤ 5) :
    OpenStore.applyMigrations .none provenance ⟨true, db⟩ = (.error .migration, ⟨true, db⟩) := by
  obtain ⟨t, ht, hshape, hrows⟩ := h.exists_ledger (by omega) hk
  -- the row of v3
  have hmem : (Value.integer (3 : ℕ), Value.blob (pinnedChecksum 3)) ∈ t.rows.map ledgerEntry := by
    rw [← hrows, h.ledger]
    exact List.mem_map.2 ⟨3, List.mem_range'_1.2 (by omega), rfl⟩
  obtain ⟨r, hr, hentry⟩ := List.mem_map.1 hmem
  have hnone : Catalog.selectedState.steps provenance never ⟨0, db⟩ = none := by
    cases hsteps : Catalog.selectedState.steps provenance never ⟨0, db⟩ with
    | none => rfl
    | some q =>
      obtain ⟨v, hv, hentry'⟩ := (ledger_of_steps ht hsteps).2 hshape r hr
      rw [hentry, Prod.mk.injEq, Value.integer.injEq] at hentry'
      have := List.mem_range'_1.1 hv
      simp only [Catalog.lastVersion] at this
      omega
  have hcatalog : applyCatalog .none provenance db = (.error .rejected, db) := by
    change inTransaction _ (Catalog.selectedState.steps provenance) db = _
    unfold inTransaction
    simp only [Faults.none, Bool.false_eq_true, if_false, hnone]
  unfold OpenStore.applyMigrations OpenStore.migrate
  rw [hcatalog]
  split_ifs <;> rfl

end Entry

/-- **Migrations are atomic, idempotent and keep what the rows mean.**  For a database of any
version, `apply_product_migrations` brings it to v5, once: the old ledger rows and every other table
stay, the new rows follow, and an old queue is upgraded.  `apply_migrations` brings it to v2 or
refuses it.  And for any database and any failures both entry points answer `Err` only with the
database as it was, and `Ok` only when nothing failed and the ledger is one that they know. -/
theorem migrations_atomic (provenance : MigrationProvenance)
    (hp : provenance.binaryIdentity ≠ []) :
    (∀ k ≤ 5, ∀ db, AtVersion k db →
      (∃ db', OpenStore.applyProductMigrations .none provenance ⟨true, db⟩ =
          (.ok (), ⟨true, db'⟩) ∧
        AtVersion 5 db' ∧
        ledgerRows db' =
          ledgerRows db ++ (List.range' (k + 1) (5 - k)).map (ledgerRow provenance) ∧
        (∀ name t, name ≠ .schemaMigrations → name ≠ .m2Messages → db.table? name = some t →
          db'.table? name = some t) ∧
        (∀ t, db.table? .m2Messages = some t →
          ∃ t', db'.table? .m3Messages = some t' ∧ QueueUpgraded t t') ∧
        ∀ provenance' : MigrationProvenance, provenance'.binaryIdentity ≠ [] →
          OpenStore.applyProductMigrations .none provenance' ⟨true, db'⟩ =
            (.ok (), ⟨true, db'⟩)) ∧
      (k ≤ 2 → ∃ db', OpenStore.applyMigrations .none provenance ⟨true, db⟩ =
          (.ok (), ⟨true, db'⟩) ∧
        AtVersion 2 db' ∧
        ledgerRows db' =
          ledgerRows db ++ (List.range' (k + 1) (2 - k)).map (ledgerRow provenance) ∧
        ∀ name t, name ≠ .schemaMigrations → db.table? name = some t →
          db'.table? name = some t) ∧
      (3 ≤ k → OpenStore.applyMigrations .none provenance ⟨true, db⟩ =
        (.error .migration, ⟨true, db⟩))) ∧
    (∀ (config : Config) (m : Message) now n, m.upgraded.due now = m.due now ∧
      handover config (m.upgraded.delivery n) =
        some (config.ntfyDriver, .ntfy m.topic m.title m.body)) ∧
    ∀ (catalog : Catalog) (faults : Faults) (store : OpenStore),
      (∀ e, (store.applyCatalog faults provenance catalog).1 = .error e →
        (store.applyCatalog faults provenance catalog).2.database = store.database) ∧
      ((store.applyCatalog faults provenance catalog).1 = .ok () →
        faults.start = false ∧ faults.commit = false ∧
        (∃ session, catalog.steps provenance never ⟨0, store.database⟩ = some ((), session) ∧
          (∀ i < session.executed, faults.statement i = false) ∧
          (store.applyCatalog faults provenance catalog).2.database = session.database) ∧
        ∀ t, store.database.table? .schemaMigrations = some t →
          t.shape.sql = some ledgerSql ∧ (t.shape = ledgerShape → ∀ r ∈ t.rows,
            ∃ v ∈ List.range' 1 catalog.lastVersion,
              ledgerEntry r = (.integer (v : ℕ), .blob (pinnedChecksum v)))) := by
  refine ⟨fun k hk db h => ⟨?_, fun hk2 => ?_, fun h3 => applyMigrations_refuses h h3 hk⟩,
    upgraded_dispatch, fun catalog faults store => ⟨fun e => database_of_error, fun hok => ?_⟩⟩
  · -- the product migrations, from version `k`
    obtain ⟨db', hmigrated, hversion, hupgraded, -⟩ := applyProductMigrations_at h hk hp
    rw [Nat.max_eq_right hk] at hversion
    refine ⟨db', hmigrated, hversion, hupgraded.ledger, hupgraded.kept, fun t ht => ?_, ?_⟩
    · have hshape := h.shape?_queue hk
      rw [ht, Option.map_some] at hshape
      rcases hupgraded.queue t ht with ht' | ⟨t', ht', hshape', hrows⟩
      · have hnone := hversion.shape?_queue (Nat.le_refl 5)
        rw [ht'] at hnone
        cases hnone
      · refine ⟨t', ht', queueUpgraded ?_ hshape' hrows⟩
        by_cases h3 : k = 3
        · rw [if_pos h3] at hshape
          exact Option.some.inj hshape
        · rw [if_neg h3] at hshape
          cases hshape
    · -- at version 5 a second run finds nothing to do
      intro provenance' hp'
      obtain ⟨db'', hagain, hreached⟩ := applyProductMigrations_at hversion (Nat.le_refl 5) hp'
      rw [hagain, hreached.same (Nat.le_refl 5)]
  · obtain ⟨db', hmigrated, hversion, hupgraded, -⟩ := applyMigrations_at h hk2 hp
    rw [Nat.max_eq_right hk2] at hversion
    refine ⟨db', hmigrated, hversion, hupgraded.ledger, fun name t hname ht => ?_⟩
    -- no queue is there up to version 2, so every table is kept
    refine hupgraded.kept name t hname (fun hqueue => ?_) ht
    have hshape := h.shape?_queue hk
    rw [← hqueue, ht, if_neg (by omega)] at hshape
    cases hshape
  · generalize hresult : store.applyCatalog faults provenance catalog = result at hok ⊢
    obtain ⟨answer, store'⟩ := result
    simp only at hok
    subst hok
    obtain ⟨-, -, hstart, hcommit, session, hsteps, hstatements, rfl⟩ :=
      applyCatalog_ok_iff.1 hresult
    exact ⟨hstart, hcommit, ⟨session, hsteps, hstatements, rfl⟩, fun t ht =>
      ledger_of_steps ht hsteps⟩

/-- A message in a queue of v3. -/
def queuedMessage : Message := m2Message Sha256.sha256 ⟨"job-1", "alerts", none, "disk full"⟩ 5

/-- One queued message behind the first three migrations. -/
def queueRows : Name → List Row
  | .schemaMigrations => [1, 2, 3].map (ledgerRow ⟨[1], 5⟩)
  | .m2Messages => [queuedMessage.legacyRow]
  | _ => []

/-- The database of a service before v4. -/
def queueDb : Database Name := ((schemaAt 3).getD .empty).filled queueRows

theorem atVersion_queueDb : AtVersion 3 queueDb := by
  refine ⟨?_, by decide +kernel⟩
  obtain ⟨σ, hσ⟩ := Option.isSome_iff_exists.1 (schemaAt_tables.1 3 (by decide))
  rw [queueDb, hσ, Option.getD_some, Schema.schema_filled]

/-- The first start of a service on a queue of v3. -/
theorem queue_migrated :
    ∃ db' t', OpenStore.applyProductMigrations .none ⟨[2], 9⟩ ⟨true, queueDb⟩ =
        (.ok (), ⟨true, db'⟩) ∧
      AtVersion 5 db' ∧ ledgerRows db' = ledgerRows queueDb ++ [4, 5].map (ledgerRow ⟨[2], 9⟩) ∧
      db'.table? .m3Messages = some t' ∧ t'.rows = [queuedMessage.upgraded.row] := by
  have hqueue : (queueDb.table? .m2Messages).map Sql.Table.rows = some [queuedMessage.legacyRow] := by
    decide +kernel
  obtain ⟨t, ht, hrows⟩ := Option.map_eq_some_iff.1 hqueue
  obtain ⟨⟨db', hmigrated, hversion, hledger, -, hupgraded, -⟩, -⟩ :=
    (migrations_atomic ⟨[2], 9⟩ (by decide)).1 3 (by decide) queueDb atVersion_queueDb
  obtain ⟨t', ht', hqueue'⟩ := hupgraded t ht
  refine ⟨db', t', hmigrated, hversion, hledger, ht', ?_⟩
  rw [hqueue'.rows, hrows, List.map_singleton, upgradeRow_legacyRow]

end MsgRiver.Service
