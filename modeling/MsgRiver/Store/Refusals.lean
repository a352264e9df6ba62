import MsgRiver.Store.Upgrades

/-!
# What the migrations refuse

A migration that answers `Ok` began and ended without a failure, had no failing statement, and found
a ledger with the text of v1 whose rows are migrations that it knows, each with its pinned checksum
(`ledger_of_steps`).  Everything else is `Err`, and leaves the database as it was.
-/

namespace MsgRiver.Store

open Sql

section Ledger

variable {db : Database Name} {t : Table} {r : Row}

/-- The version of a ledger row is an integer. -/
theorem exists_version (hshape : t.shape = ledgerShape) (hr : r ∈ t.rows) :
    ∃ n, (ledgerEntry r).1 = .integer n := by
  have hcheck := (t.admitted.1 r hr).2 (.isInteger (.column "version"))
    (by rw [hshape]; decide +kernel)
  rw [hshape, show ledgerShape.columns = ledgerColumns from rfl, Expr.passes, Expr.eval,
    Expr.eval] at hcheck
  unfold ledgerEntry
  generalize field ledgerColumns "version" r = v at hcheck ⊢
  cases v with
  | integer n => exact ⟨n, rfl⟩
  | null | text s | blob bytes => simp [Value.ofBool] at hcheck

/-- A version determines the ledger row. -/
theorem ledgerRow_unique {r' : Row} (hshape : t.shape = ledgerShape) (hr : r ∈ t.rows)
    (hr' : r' ∈ t.rows) {v : ℤ} (hv : (ledgerEntry r).1 = .integer v)
    (hv' : (ledgerEntry r').1 = .integer v) : r = r' := by
  have hunique := t.admitted.2 "version" (by rw [hshape]; decide)
  rw [hshape, List.filter_map] at hunique
  refine List.inj_on_of_nodup_map hunique ?_ ?_ (hv.trans hv'.symm)
  · exact List.mem_filter.2 ⟨hr, by
      rw [Function.comp_apply, decide_eq_true_eq, show field ledgerShape.columns "version" r =
        .integer v from hv]
      simp⟩
  · exact List.mem_filter.2 ⟨hr', by
      rw [Function.comp_apply, decide_eq_true_eq, show field ledgerShape.columns "version" r' =
        .integer v from hv']
      simp⟩

/-- What the ledger records for the version of a row. -/
theorem selectBlob_of_mem (ht : db.table? .schemaMigrations = some t)
    (hshape : t.shape = ledgerShape) (hr : r ∈ t.rows) {v : ℤ}
    (hv : (ledgerEntry r).1 = .integer v) {recorded : Option (List UInt8)}
    (hrecorded : selectBlob .schemaMigrations "checksum" (versionIs v) db = some recorded) :
    ∃ checksum, recorded = some checksum ∧ (ledgerEntry r).2 = .blob checksum := by
  have hfind : t.rows.find? (fun r => (versionIs v).selects ledgerColumns r) = some r := by
    cases hfound : t.rows.find? (fun r => (versionIs v).selects ledgerColumns r) with
    | none =>
      have := List.find?_eq_none.1 hfound r hr
      rw [selects_versionIs, hv] at this
      simp at this
    | some r' =>
      have hselects := List.find?_some hfound
      rw [selects_versionIs, beq_iff_eq] at hselects
      rw [ledgerRow_unique hshape hr (List.mem_of_find?_eq_some hfound) hv hselects]
  have hcolumns : ("checksum" :: (versionIs v).columns).all (· ∈ ledgerColumns) = true := by
    have : (versionIs v).columns = ["version"] := rfl
    rw [this]
    decide
  unfold selectBlob at hrecorded
  rw [ht, Option.bind_some, hshape, show ledgerShape.columns = ledgerColumns from rfl,
    if_pos hcolumns, hfind] at hrecorded
  unfold ledgerEntry
  simp only at hrecorded ⊢
  generalize field ledgerColumns "checksum" r = c at hrecorded ⊢
  cases c with
  | blob bytes =>
    cases hrecorded
    exact ⟨bytes, rfl, rfl⟩
  | null | integer n | text s => cases hrecorded

end Ledger

/-- The ledger keeps its shape and its rows. -/
def LedgerGrows (db db' : Database Name) : Prop :=
  ∀ t, db.table? .schemaMigrations = some t →
    ∃ t', db'.table? .schemaMigrations = some t' ∧ t'.shape = t.shape ∧ t.rows ⊆ t'.rows

theorem LedgerGrows.refl (db : Database Name) : LedgerGrows db db :=
  fun t ht => ⟨t, ht, rfl, List.Subset.refl _⟩

theorem LedgerGrows.trans {db db' db'' : Database Name} (h₁ : LedgerGrows db db')
    (h₂ : LedgerGrows db' db'') : LedgerGrows db db'' := by
  intro t ht
  obtain ⟨t', ht', hshape', hrows'⟩ := h₁ t ht
  obtain ⟨t'', ht'', hshape'', hrows''⟩ := h₂ t' ht'
  exact ⟨t'', ht'', hshape''.trans hshape', List.Subset.trans hrows' hrows''⟩

/-- The rows of the ledger with the version `v` have its pinned checksum. -/
def Pinned (v : ℕ) (db : Database Name) : Prop :=
  ∀ t, db.table? .schemaMigrations = some t → t.shape = ledgerShape → ∀ r ∈ t.rows,
    (ledgerEntry r).1 = .integer v → ledgerEntry r = (.integer v, .blob (pinnedChecksum v))

theorem Pinned.of_grows {v : ℕ} {db db' : Database Name} (h : Pinned v db')
    (hgrows : LedgerGrows db db') : Pinned v db := by
  intro t ht hshape r hr hv
  obtain ⟨t', ht', hshape', hrows⟩ := hgrows t ht
  exact h t' ht' (hshape'.trans hshape) r (hrows hr) hv

theorem pinned_of_recorded {v : ℕ} {db : Database Name} {recorded : Option (List UInt8)}
    (hrecorded : selectBlob .schemaMigrations "checksum" (versionIs v) db = some recorded)
    (hpinned : ∀ checksum, recorded = some checksum → checksum = pinnedChecksum v) :
    Pinned v db := by
  intro t ht hshape r hr hv
  obtain ⟨checksum, rfl, hentry⟩ := selectBlob_of_mem ht hshape hr hv hrecorded
  rw [← hpinned checksum rfl, ← hentry, ← hv]

section Sound

variable {provenance : MigrationProvenance}

/-- What an accepted step says about the ledger before it. -/
theorem applyVersion_sound {v : ℕ} {s : Session Name} {q : Unit × Session Name}
    (hv : ∀ st ∈ migrationSql v, Name.schemaMigrations ∉ st.writes)
    (h : applyVersion never provenance v (pinnedChecksum v) (migrationSql v) s = some q) :
    Pinned v s.database ∧ LedgerGrows s.database q.2.database := by
  rw [applyVersion_never] at h
  obtain ⟨recorded, hrecorded, h⟩ := Option.bind_eq_some_iff.1 h
  cases recorded with
  | some checksum =>
    simp only [Option.ite_none_right_eq_some, Option.some.injEq] at h
    obtain ⟨rfl, rfl⟩ := h
    exact ⟨pinned_of_recorded hrecorded (by rintro _ ⟨⟩; rfl), .refl _⟩
  | none =>
    simp only [Option.bind_eq_some_iff, Option.map_eq_some_iff] at h
    obtain ⟨db, hall, db', hinsert, rfl⟩ := h
    refine ⟨pinned_of_recorded hrecorded nofun, fun t ht => ?_⟩
    have ht' := table?_execAll hall hv ht
    obtain ⟨t', ht', hshape', hrows'⟩ := table?_insert hinsert ht'
    exact ⟨t', ht', hshape', by rw [hrows']; exact List.subset_append_left _ _⟩

/-- What an accepted step of v1 says about a ledger. -/
theorem applyCatalogV1_sound {s : Session Name} {q : Unit × Session Name} {t : Table}
    (ht : s.database.table? .schemaMigrations = some t)
    (h : applyCatalogV1InTransaction never provenance s = some q) :
    t.shape.sql = some ledgerSql ∧ Pinned 1 s.database ∧ q.2.database = s.database := by
  rw [applyCatalogV1InTransaction_never, ledgerText, ht] at h
  simp only at h
  obtain ⟨text, htext, h⟩ := Option.bind_eq_some_iff.1 h
  obtain ⟨schemaSql, hsql, rfl⟩ := Option.map_eq_some_iff.1 htext
  simp only [Option.ite_none_left_eq_some, Option.bind_eq_some_iff, Option.some.injEq, not_not,
    ne_eq, not_or] at h
  obtain ⟨rfl, count, -, recorded, hrecorded, ⟨-, hpinned⟩, rfl⟩ := h
  refine ⟨hsql, pinned_of_recorded hrecorded ?_, rfl⟩
  rintro checksum rfl
  exact Option.some.inj hpinned

/-- What an accepted step of v2 says about the ledger before it. -/
theorem applyCatalogV2_sound {s : Session Name} {q : Unit × Session Name}
    {allowProductVersions : Bool}
    (h : applyCatalogV2InTransaction never provenance allowProductVersions s = some q) :
    (∀ t, s.database.table? .schemaMigrations = some t → t.shape = ledgerShape → ∀ r ∈ t.rows,
      ∃ v ∈ List.range' 1 (if allowProductVersions then 5 else 2),
        (ledgerEntry r).1 = .integer (v : ℕ)) ∧
    Pinned 2 s.database ∧ LedgerGrows s.database q.2.database := by
  rw [applyCatalogV2InTransaction_never] at h
  obtain ⟨unknownVersions, hcount, h⟩ := Option.bind_eq_some_iff.1 h
  simp only [Option.ite_none_left_eq_some, ne_eq, not_not] at h
  obtain ⟨rfl, h⟩ := h
  obtain ⟨hpinned, hgrows⟩ := @applyVersion_sound _ 2 _ _ (by decide) h
  refine ⟨fun t ht hshape r hr => ?_, hpinned, hgrows⟩
  obtain ⟨n, hn⟩ := exists_version hshape hr
  unfold countWhere at hcount
  rw [ht, Option.bind_some, hshape, show ledgerShape.columns = ledgerColumns from rfl,
    Option.ite_none_right_eq_some, Option.some.injEq, List.countP_eq_zero] at hcount
  have hselects := hcount.2 r hr
  rw [selects_versionNotIn, hn] at hselects
  cases allowProductVersions
  · simp only [Bool.false_eq_true, if_false, List.map_cons, List.map_nil, ne_eq, reduceCtorEq,
      not_false_eq_true, true_and, decide_eq_true_eq, not_not, List.mem_cons, Value.integer.injEq,
      List.not_mem_nil, or_false] at hselects
    refine ⟨n.toNat, List.mem_range'_1.2 ?_, ?_⟩
    · simp only [Bool.false_eq_true, if_false]
      omega
    · rw [hn, Int.toNat_of_nonneg (by omega)]
  · simp only [if_true, List.map_cons, List.map_nil, ne_eq, reduceCtorEq, not_false_eq_true,
      true_and, decide_eq_true_eq, not_not, List.mem_cons, Value.integer.injEq, List.not_mem_nil,
      or_false] at hselects
    refine ⟨n.toNat, List.mem_range'_1.2 ?_, ?_⟩
    · simp only [if_true]
      omega
    · rw [hn, Int.toNat_of_nonneg (by omega)]

/-! ### Entry points -/

/-- The two entry points. -/
inductive Catalog
  | selectedState
  | product
  deriving DecidableEq

/-- The statements of a catalog, under a choice of the ones that fail. -/
def Catalog.steps (provenance : MigrationProvenance) : Catalog → (ℕ → Bool) → Action Name Unit
  | .selectedState => fun fails => catalogSteps fails provenance
  | .product => fun fails => productSteps fails provenance

/-- The last version that the entry point knows. -/
def Catalog.lastVersion : Catalog → ℕ
  | .selectedState => 2
  | .product => 5

/-- `apply_migrations` or `apply_product_migrations`. -/
def OpenStore.applyCatalog (store : OpenStore) (faults : Faults)
    (provenance : MigrationProvenance) : Catalog → Except MigrationError Unit × OpenStore
  | .selectedState => store.applyMigrations faults provenance
  | .product => store.applyProductMigrations faults provenance

theorem OpenStore.applyCatalog_eq (store : OpenStore) (faults : Faults) (catalog : Catalog) :
    store.applyCatalog faults provenance catalog =
      store.migrate (inTransaction faults (catalog.steps provenance))
        provenance := by
  cases catalog <;> rfl

/-- **An accepted ledger.** -/
theorem ledger_of_steps {catalog : Catalog} {db : Database Name} {q : Unit × Session Name}
    {t : Table} (ht : db.table? .schemaMigrations = some t)
    (h : catalog.steps provenance never ⟨0, db⟩ = some q) :
    t.shape.sql = some ledgerSql ∧ (t.shape = ledgerShape → ∀ r ∈ t.rows,
      ∃ v ∈ List.range' 1 catalog.lastVersion,
        ledgerEntry r = (.integer (v : ℕ), .blob (pinnedChecksum v))) := by
  cases catalog with
  | selectedState =>
    obtain ⟨q₁, h₁, h₂⟩ := Action.bind_eq_some.1 h
    obtain ⟨hsql, hpinned₁, hsame⟩ := applyCatalogV1_sound ht h₁
    obtain ⟨hversions, hpinned₂, -⟩ := applyCatalogV2_sound h₂
    rw [hsame] at hversions hpinned₂
    refine ⟨hsql, fun hshape r hr => ?_⟩
    obtain ⟨v, hv, hentry⟩ := hversions t ht hshape r hr
    refine ⟨v, hv, ?_⟩
    have hcases : v = 1 ∨ v = 2 := by
      have := List.mem_range'_1.1 hv
      simp only [Bool.false_eq_true, if_false] at this
      omega
    rcases hcases with rfl | rfl
    · exact hpinned₁ t ht hshape r hr hentry
    · exact hpinned₂ t ht hshape r hr hentry
  | product =>
    obtain ⟨q₁, h₁, h⟩ := Action.bind_eq_some.1 h
    obtain ⟨q₂, h₂, h⟩ := Action.bind_eq_some.1 h
    obtain ⟨q₃, h₃, h⟩ := Action.bind_eq_some.1 h
    obtain ⟨q₄, h₄, h₅⟩ := Action.bind_eq_some.1 h
    obtain ⟨hsql, hpinned₁, hsame⟩ := applyCatalogV1_sound ht h₁
    obtain ⟨hversions, hpinned₂, hgrows₂⟩ := applyCatalogV2_sound h₂
    obtain ⟨hpinned₃, hgrows₃⟩ := @applyVersion_sound _ 3 _ _ (by decide) h₃
    obtain ⟨hpinned₄, hgrows₄⟩ := @applyVersion_sound _ 4 _ _ (by decide) h₄
    obtain ⟨hpinned₅, -⟩ := @applyVersion_sound _ 5 _ _ (by decide) h₅
    rw [hsame] at hversions hpinned₂ hgrows₂
    -- a pin of the grown ledger holds for the rows that were there
    replace hpinned₃ := hpinned₃.of_grows hgrows₂
    replace hpinned₄ := hpinned₄.of_grows (hgrows₂.trans hgrows₃)
    replace hpinned₅ := hpinned₅.of_grows ((hgrows₂.trans hgrows₃).trans hgrows₄)
    refine ⟨hsql, fun hshape r hr => ?_⟩
    obtain ⟨v, hv, hentry⟩ := hversions t ht hshape r hr
    refine ⟨v, hv, ?_⟩
    have hcases : v = 1 ∨ v = 2 ∨ v = 3 ∨ v = 4 ∨ v = 5 := by
      have := List.mem_range'_1.1 hv
      simp only [if_true] at this
      omega
    rcases hcases with rfl | rfl | rfl | rfl | rfl
    · exact hpinned₁ t ht hshape r hr hentry
    · exact hpinned₂ t ht hshape r hr hentry
    · exact hpinned₃ t ht hshape r hr hentry
    · exact hpinned₄ t ht hshape r hr hentry
    · exact hpinned₅ t ht hshape r hr hentry

/-! ### Failures -/

theorem steady_recordedChecksum (v : ℤ) : Steady (fun fails => recordedChecksum fails v) := by
  unfold recordedChecksum
  exact steady_query _

theorem steady_applyVersion (v : ℤ) (pinned : List UInt8) (sql : List (Statement Name)) :
    Steady (fun fails => applyVersion fails provenance v pinned sql) := by
  refine (steady_recordedChecksum v).bind fun recorded => ?_
  cases recorded with
  | none => exact (steady_executeBatch sql).bind fun _ => steady_statement _
  | some checksum => exact (steady_pure ()).ite steady_failure

theorem steady_applyCatalogV1 :
    Steady (fun fails => applyCatalogV1InTransaction fails provenance) := by
  refine (steady_statement _).bind fun text => ?_
  cases text with
  | none => exact (steady_executeBatch _).bind fun _ => steady_statement _
  | some schemaSql =>
    exact steady_failure.ite ((steady_statement _).bind fun count =>
      (steady_recordedChecksum 1).bind fun checksum => steady_failure.ite (steady_pure ()))

theorem steady_applyCatalogV2 (allowProductVersions : Bool) :
    Steady (fun fails => applyCatalogV2InTransaction fails provenance allowProductVersions) :=
  (steady_statement _).bind fun _ => steady_failure.ite (steady_applyVersion _ _ _)

theorem Catalog.steady (catalog : Catalog) : Steady (catalog.steps provenance) := by
  cases catalog with
  | selectedState => exact steady_applyCatalogV1.bind fun _ => steady_applyCatalogV2 false
  | product =>
    exact steady_applyCatalogV1.bind fun _ => (steady_applyCatalogV2 true).bind fun _ =>
      (steady_applyVersion _ _ _).bind fun _ => (steady_applyVersion _ _ _).bind fun _ =>
        steady_applyVersion _ _ _

/-- The steps with failures, when nothing fails. -/
theorem Catalog.steps_eq_some {catalog : Catalog} {faults : Faults} {db : Database Name}
    {session : Session Name} :
    catalog.steps provenance faults.statement ⟨0, db⟩ = some ((), session) ↔
      catalog.steps provenance never ⟨0, db⟩ = some ((), session) ∧
        ∀ i < session.executed, faults.statement i = false := by
  rw [catalog.steady faults.statement ⟨0, db⟩ ((), session)]
  simp

/-- **The answer `Ok`**: everything began and ended, and no statement failed. -/
theorem applyCatalog_ok_iff {catalog : Catalog} {faults : Faults} {store store' : OpenStore} :
    store.applyCatalog faults provenance catalog = (.ok (), store') ↔
      provenance.binaryIdentity ≠ [] ∧ store.connected = true ∧ faults.start = false ∧
      faults.commit = false ∧ ∃ session,
        catalog.steps provenance never ⟨0, store.database⟩ = some ((), session) ∧
        (∀ i < session.executed, faults.statement i = false) ∧
        { store with database := session.database } = store' := by
  simp only [← and_assoc, ← Catalog.steps_eq_some]
  rw [OpenStore.applyCatalog_eq]
  unfold OpenStore.migrate inTransaction
  by_cases hp : provenance.binaryIdentity = []
  · simp [hp]
  rw [if_neg (by simpa using hp)]
  cases store.connected with
  | false => simp
  | true =>
    rw [if_neg (by decide)]
    cases hstart : faults.start with
    | true => simp
    | false =>
      simp only [Bool.false_eq_true, if_false]
      cases hsteps : catalog.steps provenance faults.statement ⟨0, store.database⟩ with
      | none => cases hrollback : faults.rollback <;> simp
      | some q =>
        obtain ⟨⟨⟩, session⟩ := q
        cases hcommit : faults.commit <;> simp [hp]

/-- A transaction that is not committed leaves the database. -/
theorem inTransaction_error {faults : Faults} {steps : (ℕ → Bool) → Action Name Unit}
    {db db' : Database Name} {failure : MigrationTransactionFailure}
    (h : inTransaction faults steps db = (.error failure, db')) : db' = db := by
  unfold inTransaction at h
  cases hstart : faults.start with
  | true =>
    rw [hstart, if_pos rfl] at h
    exact (congrArg Prod.snd h).symm
  | false =>
    rw [hstart, if_neg Bool.false_ne_true] at h
    cases hsteps : steps faults.statement ⟨0, db⟩ with
    | none =>
      rw [hsteps] at h
      cases hrollback : faults.rollback <;> rw [hrollback] at h <;>
        exact (congrArg Prod.snd h).symm
    | some q =>
      rw [hsteps] at h
      cases hcommit : faults.commit
      · simp [hcommit] at h
      · rw [hcommit] at h
        exact (congrArg Prod.snd h).symm

/-- The answer `Err` leaves the database. -/
theorem database_of_error {catalog : Catalog} {faults : Faults} {store : OpenStore}
    {e : MigrationError} (h : (store.applyCatalog faults provenance catalog).1 = .error e) :
    (store.applyCatalog faults provenance catalog).2.database = store.database := by
  rw [OpenStore.applyCatalog_eq] at h ⊢
  unfold OpenStore.migrate at h ⊢
  split_ifs at h ⊢
  · rfl
  · rfl
  · generalize hr : inTransaction faults (catalog.steps provenance) store.database = r at h ⊢
    obtain ⟨_ | _, db⟩ := r
    · rename_i failure
      cases failure <;> exact inTransaction_error hr
    · cases h

end Sound

end MsgRiver.Store
