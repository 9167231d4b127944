import SkillRegistry.Store.Schema
import SkillRegistry.Structure.Resume

/-!
# Creating and migrating a file

`Store.__init__` on a database file with its schema, as a program whose statements and
transactions are each done or not: it may be killed, or fail, between any two of them.

* `createProgram` creates the schema of a new file, and migrates a file that has no
  version; `existingProgram` is the choice by `PRAGMA user_version`;
* `startProgram` is the start, and `startFile` what it makes of a file where nothing
  fails (`performs_startProgram`);
* where the file has the current tables already, it is the start of `Store.Open`
  (`startStore_refines`, in `Interrupted`).
-/

namespace SkillRegistry

open Wire

variable (P : Platform)

/-! ## The program -/

/-- What a start reads besides the file. -/
structure StartEnv where
  verifyInterval : ℚ
  /-- `_utc_now()` at the creation of the service. -/
  createdAt : Timestamp
  /-- The seconds of `datetime.now(UTC)` when the submissions are migrated. -/
  now : Int
  /-- `_utc_now()` at the end of the start. -/
  verifiedAt : Timestamp
  /-- `time.monotonic()` at the end of the start. -/
  clock : ℚ

/-- A start in which no stage fails. -/
def StartEnv.openEnv (env : StartEnv) : OpenEnv :=
  ⟨env.verifyInterval, fun _ => none, env.createdAt, env.verifiedAt, env.clock⟩

/-- A part of a start. -/
abbrev StartProgram := Durable DbFile PyErr

/-- A check of the file. -/
def checkFile (check : DbFile → Except PyErr Unit) : StartProgram Unit := Durable.read check

/-- `executescript`: every statement is on its own. -/
def executeScript (statements : List FileStatement) : StartProgram Unit :=
  Durable.sequence (statements.map fun statement => Durable.commit statement)

/-- The submission of a row of an older table. -/
def LegacyRow.submission (row : LegacyRow) : Except PyErr IdempotencyRow := do
  let response ← match pyLoads P row.responseJson with
    | .error .jsonDecodeError =>
      .error (.storeIntegrityError "legacy idempotency response is invalid")
    | x => x
  let seq := match response with
    | .obj response => Dict.get? response (py "seq")
    | _ => none
  match seq with
  | some (.int seq) =>
    .ok ⟨row.auditorId, row.key, row.bodySha256, row.responseJson, seq, row.expiresAt⟩
  | _ => .error (.storeIntegrityError "legacy idempotency response has no sequence")

/-- `INSERT INTO idempotency` of such a row. -/
def insertLegacy (log : Table LogRow.seq) (t : Table IdempotencyRow.primaryKey) (row : LegacyRow) :
    Except PyErr (Table IdempotencyRow.primaryKey) := do
  let submission ← row.submission P
  bindInt [submission.seq]
  -- the key is looked up when the row is inserted, the reference when the statement ends
  match t.insert? submission with
  | none => .error (.integrityError
      "UNIQUE constraint failed: idempotency.auditor_id, idempotency.key")
  | some t =>
    if (log.find? submission.seq).isSome then .ok t
    else .error (.integrityError "FOREIGN KEY constraint failed")

/-- The transaction of `_migrate_idempotency`. -/
def replaceIdempotency (legacy : List LegacyRow) : FileStatement := fun f => do
  let f ← renameTable "idempotency" "idempotency_legacy" f
  let f ← createTable false "idempotency" idempotencyTable f
  let f ← createIndex false "idx_idempotency_expiry" expiryIndex f
  let submissions ← legacy.foldlM (insertLegacy P f.db.log) f.db.idempotency
  dropTable "idempotency_legacy" { f with db := { f.db with idempotency := submissions } }

/-- The rows of an older table that have not expired. -/
def unexpiredLegacy (now : Int) (f : DbFile) : Except PyErr (List LegacyRow) :=
  let legacy := f.legacy.filter fun row => now < row.expiresAt
  if legacy ≠ [] ∧ "auditor_id" ∉ f.schema.tableColumns "idempotency" then
    .error (.storeIntegrityError ("unexpired legacy idempotency entries have no auditor scope; " ++
      "stop submissions until they expire before upgrading"))
  else .ok legacy

/-- The table has the columns that an older one lacks. -/
def DbFile.idempotencyCurrent (f : DbFile) : Bool :=
  "auditor_id" ∈ f.schema.tableColumns "idempotency" && "seq" ∈ f.schema.tableColumns "idempotency"

/-- `_migrate_idempotency`. -/
def migrateIdempotency (now : Int) : StartProgram Unit := do
  let exists_ ← Durable.read fun f => .ok (f.schema.hasTable "idempotency")
  if !exists_ then executeScript idempotencyStatements
  else do
    let current ← Durable.read fun f => .ok f.idempotencyCurrent
    if current then Durable.commit (createIndex true "idx_idempotency_expiry" expiryIndex)
    else do
      -- the rows are read before the transaction, at the time of this start
      let legacy ← Durable.read (unexpiredLegacy now)
      Durable.commit (replaceIdempotency P legacy)

/-- `_migrate_imported_records`; its rows are those of `migrateImportedRecords`. -/
def migrateImports : StartProgram Unit := do
  Durable.when (fun f => "seq" ∉ f.schema.tableColumns "imported_records")
    (Durable.commit addSeqColumn)
  Durable.when (fun f => ∃ row ∈ f.db.imported.rows, row.seq = none)
    (Durable.commit (DbFile.onRows (migrateImportedRecords P)))

/-- `_mark_current_schema`. -/
def markFile : FileStatement := fun f => do
  let f := { f with db := migrated 4 schemaVersion f.db }
  requireSoundFile P f
  .ok f

/-- The tables of `_SCHEMA`, the time of creation, and the imports. -/
def prepareProgram (env : StartEnv) : StartProgram Unit := do
  executeScript schemaStatements
  Durable.commit (DbFile.onRows (initializeCreationMetadata env.createdAt))
  migrateImports P

/-- The creation of a file, and the migration of one that has no version. -/
def createProgram (env : StartEnv) : StartProgram Unit := do
  prepareProgram P env
  migrateIdempotency P env.now
  Durable.commit (markFile P)

/-- The transaction of a migration: new tables, and the new version. -/
def migrateFile (tables : List FileStatement) (version : Nat) (marker : PyStr) : FileStatement :=
  fun f => do
    let f ← Durable.compose tables f
    .ok { f with db := migrated version marker f.db }

/-- `_migrate_v2_to_v3`. -/
def migrateV2ToV3 : FileStatement := migrateFile
  [createTable true "boundaries" ⟨boundaryColumns, ["log_size"], []⟩,
    createTable true "merkle_frontier" ⟨["level", "len", "tail"], ["level"], []⟩] 3 (py "3")

/-- `_migrate_v3_to_v4`. -/
def migrateV3ToV4 : FileStatement := migrateFile
  [createTable true "upstream_high_water" ⟨highWaterColumns, ["key_id"], []⟩] 4 schemaVersion

/-- A version 3 file becomes one of the current version. -/
def upgradeV3 : StartProgram Unit := do
  checkFile requireV3Schema
  Durable.commit migrateV3ToV4
  checkFile requireCurrentSchema

/-- What a start does to a file of a version. -/
def existingProgram (env : StartEnv) : Nat → StartProgram Unit
  | 0 => do
    checkFile requireLegacySchema
    createProgram P env
  | 4 => checkFile requireCurrentSchema
  | 3 => upgradeV3
  | 2 => do
    checkFile requireV2Schema
    Durable.commit migrateV2ToV3
    upgradeV3
  | n => checkFile fun _ =>
    .error (.storeIntegrityError s!"unsupported database schema version {n}")

/-- `PRAGMA journal_mode=WAL`: an empty file gets a header. -/
def DbFile.journaled (f : DbFile) : DbFile := { f with db := { f.db with existed := true } }

/-- The file is brought to the current schema. -/
def schemaProgram (env : StartEnv) : StartProgram Unit := do
  let existed ← Durable.read fun f => .ok f.db.existed
  Durable.act DbFile.journaled
  -- whether the file existed was read before the connection created it
  if existed then do
    let version ← Durable.read fun f => .ok f.db.userVersion
    existingProgram P env version
  else createProgram P env

/-- `integrity_errors` and `_ensure_boundaries`. -/
def verifyProgram : StartProgram Unit := do
  checkFile (requireSoundFile P)
  Durable.when (fun f => f.onRows (ensureBoundaries P none) ≠ .ok f)
    (Durable.commit (DbFile.onRows (ensureBoundaries P none)))

/-- What a start does before the instance is ready. -/
def startProgram (env : StartEnv) : StartProgram Unit := do
  schemaProgram P env
  verifyProgram P

/-- `Store.__init__`. -/
def startStore (env : StartEnv) : StartProgram Store :=
  if env.verifyInterval ≤ 0 then Durable.read fun _ =>
    .error (.valueError "health_verify_interval must be a positive finite number of seconds")
  else do
    Durable.mapError startError (startProgram P env)
    let head ← Durable.read fun f => storeHead f.db
    pure (readyStore env.openEnv head)

/-! ## What it does where nothing fails -/

/-- What `_migrate_idempotency` makes of a file. -/
def idempotencyFile (now : Int) : FileStatement := fun f =>
  if !f.schema.hasTable "idempotency" then Durable.compose idempotencyStatements f
  else if f.idempotencyCurrent then createIndex true "idx_idempotency_expiry" expiryIndex f
  else do
    let legacy ← unexpiredLegacy now f
    replaceIdempotency P legacy f

/-- What `_migrate_imported_records` makes of a file. -/
def importsFile : FileStatement :=
  Durable.onlyIf (fun f => "seq" ∉ f.schema.tableColumns "imported_records") addSeqColumn >=>
    Durable.onlyIf (fun f => ∃ row ∈ f.db.imported.rows, row.seq = none)
      (DbFile.onRows (migrateImportedRecords P))

/-- The file after the statements of `_SCHEMA`, with the time of creation and the imports. -/
def prepareFile (env : StartEnv) : FileStatement :=
  Durable.compose schemaStatements >=>
    (DbFile.onRows (initializeCreationMetadata env.createdAt) >=> importsFile P)

/-- What the creation makes of a file. -/
def createFile (env : StartEnv) : FileStatement :=
  prepareFile P env >=> (idempotencyFile P env.now >=> markFile P)

/-- What a start makes of a version 3 file. -/
def upgradeV3File : FileStatement :=
  Durable.checked requireV3Schema >=> (migrateV3ToV4 >=> Durable.checked requireCurrentSchema)

/-- What a start makes of the schema of a file of a version. -/
def existingFile (env : StartEnv) : Nat → FileStatement
  | 0 => Durable.checked requireLegacySchema >=> createFile P env
  | 4 => Durable.checked requireCurrentSchema
  | 3 => upgradeV3File
  | 2 => Durable.checked requireV2Schema >=> (migrateV2ToV3 >=> upgradeV3File)
  | n => Durable.checked fun _ =>
    .error (.storeIntegrityError s!"unsupported database schema version {n}")

/-- What a start makes of the schema of a file. -/
def schemaFile (env : StartEnv) : FileStatement := fun f =>
  if f.db.existed then existingFile P env f.db.userVersion f.journaled
  else createFile P env f.journaled

/-- What the verification makes of a file: the caches are filled in. -/
def verifyFile : FileStatement :=
  Durable.checked (requireSoundFile P) >=>
    Durable.onlyIf (fun f => f.onRows (ensureBoundaries P none) ≠ .ok f)
      (DbFile.onRows (ensureBoundaries P none))

/-- What a start makes of a file. -/
def startFile (env : StartEnv) : FileStatement := schemaFile P env >=> verifyFile P

variable {P}

/-- The file in the transaction of `_migrate_idempotency`, once the new table is there. -/
def DbFile.renewed (f : DbFile) : DbFile :=
  (({ f with schema := f.schema.renamed "idempotency" "idempotency_legacy" } : DbFile).addTable
    "idempotency" idempotencyTable).addIndex "idx_idempotency_expiry" expiryIndex

/-- The schema that the transaction leaves. -/
def Schema.replaced (s : Schema) : Schema :=
  (DbFile.renewed ⟨s, .absent, []⟩).schema.dropped "idempotency_legacy"

/-- The transaction inserts the submissions into a new table. -/
theorem replaceIdempotency_eq_ok {legacy : List LegacyRow} {f f' : DbFile} :
    replaceIdempotency P legacy f = .ok f' ↔
      (f.schema.hasTable "idempotency_legacy" = false ∧
        f.schema.hasIndex "idempotency_legacy" = false ∧
          f.schema.hasIndex "idx_idempotency_expiry" = false) ∧
      ∃ submissions, legacy.foldlM (insertLegacy P f.db.log) .empty = .ok submissions ∧
        f' = ⟨f.schema.replaced, { f.db with idempotency := submissions }, []⟩ := by
  have htable := hasTable_renamed f.schema
    (show "idempotency" ≠ "idempotency_legacy" by decide)
  have hindex : (f.schema.renamed "idempotency" "idempotency_legacy").hasIndex
      "idx_idempotency_expiry" = f.schema.hasIndex "idx_idempotency_expiry" := by
    rw [Schema.hasIndex, lookup_indexes_renamed, Option.isSome_map]
    rfl
  rw [replaceIdempotency]
  constructor
  · intro h
    -- the older table is renamed, so that the new one can be created under its name
    obtain ⟨f₁, h₁, h⟩ := Wire.Except.bind_eq_ok h
    obtain ⟨hname, hname', rfl⟩ := renameTable_eq_ok.1 h₁
    rw [createTable_of_not htable] at h
    obtain ⟨f₂, h₂, h⟩ := Wire.Except.bind_eq_ok h
    obtain rfl := Except.ok.inj h₂
    obtain ⟨f₃, h₃, h⟩ := Wire.Except.bind_eq_ok h
    rcases createIndex_eq_ok h₃ with ⟨-, hb, -⟩ | ⟨hfree, rfl⟩
    · cases hb
    obtain ⟨submissions, hs, h⟩ := Wire.Except.bind_eq_ok h
    exact ⟨⟨hname, hname', hindex.symm.trans hfree⟩, submissions, hs, (Except.ok.inj h).symm⟩
  · rintro ⟨⟨hname, hname', hfree⟩, submissions, hs, rfl⟩
    rw [renameTable_eq_ok.2 ⟨hname, hname', rfl⟩]
    change createTable false "idempotency" idempotencyTable _ >>= _ = _
    rw [createTable_of_not htable]
    change createIndex false "idx_idempotency_expiry" expiryIndex _ >>= _ = _
    rw [createIndex_of_not (hindex.trans hfree)]
    change legacy.foldlM (insertLegacy P f.db.log) .empty >>= _ = _
    rw [hs]
    rfl

theorem table?_replaced (s : Schema) :
    s.replaced.table? "idempotency" = some idempotencyTable := rfl

theorem table?_replaced_of_ne (s : Schema) {n : String} (hn : n ≠ "idempotency")
    (hn' : n ≠ "idempotency_legacy") : s.replaced.table? n = s.table? n := by
  refine (lookup_filter_fst hn').trans ?_
  exact (table?_addTable _ _ _ n).trans ((if_neg hn).trans (lookup_map_fst hn hn'))

theorem hasIndex_replaced (s : Schema) : s.replaced.hasIndex "idx_idempotency_expiry" = true := rfl

/-- The indexes of the log are not dropped with the older table. -/
theorem lookup_indexes_replaced (s : Schema) {n : String} (hn : n ≠ "idx_idempotency_expiry")
    (hlog : ∀ index, s.indexes.lookup n = some index → index.table = "log") :
    s.replaced.indexes.lookup n = s.indexes.lookup n := by
  have hadded : (DbFile.renewed ⟨s, .absent, []⟩).schema.indexes.lookup n =
      (s.indexes.lookup n).map (IndexDef.renamed "idempotency" "idempotency_legacy") :=
    (lookup_addIndex _ _ _ n).trans ((if_neg hn).trans (lookup_indexes_renamed s _ _ n))
  cases hindex : s.indexes.lookup n with
  | none => exact lookup_filter_eq_none (by rw [hadded, hindex]; rfl)
  | some index =>
    obtain ⟨table, columns⟩ := index
    obtain rfl : table = "log" := hlog _ hindex
    exact lookup_filter_eq_some (by rw [hadded, hindex]; rfl) rfl

theorem performs_executeScript (statements : List FileStatement) :
    Durable.Performs (executeScript statements) (Durable.compose statements) := by
  induction statements with
  | nil => exact Durable.performs_pure
  | cons statement statements ih =>
    exact Durable.performs_andThen (Durable.performs_commit statement) ih

theorem performs_migrateIdempotency (now : Int) :
    Durable.Performs (migrateIdempotency P now) (idempotencyFile P now) := by
  intro n f
  rw [idempotencyFile]
  refine Durable.ends_bind (t := f) (a := f.schema.hasTable "idempotency") rfl rfl fun n => ?_
  cases f.schema.hasTable "idempotency" with
  | false => exact performs_executeScript idempotencyStatements n f
  | true =>
    refine Durable.ends_bind (t := f) (a := f.idempotencyCurrent) rfl rfl fun n => ?_
    cases f.idempotencyCurrent with
    | true => exact Durable.performs_commit _ n f
    | false =>
      exact Durable.performs_read (q := unexpiredLegacy now)
        (fun legacy => Durable.performs_commit (replaceIdempotency P legacy)) n f

theorem performs_prepareProgram (env : StartEnv) :
    Durable.Performs (prepareProgram P env) (prepareFile P env) :=
  Durable.performs_andThen (performs_executeScript _) (Durable.performs_andThen
    (Durable.performs_commit _) (Durable.performs_andThen
      (Durable.performs_when (Durable.performs_commit _))
      (Durable.performs_when (Durable.performs_commit _))))

theorem performs_createProgram (env : StartEnv) :
    Durable.Performs (createProgram P env) (createFile P env) :=
  Durable.performs_andThen (performs_prepareProgram env) (Durable.performs_andThen
    (performs_migrateIdempotency env.now) (Durable.performs_commit _))

theorem performs_upgradeV3 : Durable.Performs upgradeV3 upgradeV3File :=
  Durable.performs_andThen (Durable.performs_check _) (Durable.performs_andThen
    (Durable.performs_commit _) (Durable.performs_check _))

theorem performs_existingProgram (env : StartEnv) (version : Nat) :
    Durable.Performs (existingProgram P env version) (existingFile P env version) := by
  unfold existingProgram existingFile
  split
  · exact Durable.performs_andThen (Durable.performs_check _) (performs_createProgram env)
  · exact Durable.performs_check _
  · exact performs_upgradeV3
  · exact Durable.performs_andThen (Durable.performs_check _) (Durable.performs_andThen
      (Durable.performs_commit _) performs_upgradeV3)
  · exact Durable.performs_check _

theorem performs_startProgram (env : StartEnv) :
    Durable.Performs (startProgram P env) (startFile P env) := by
  refine Durable.performs_andThen (fun n f => ?_) (Durable.performs_andThen
    (Durable.performs_check _) (Durable.performs_when (Durable.performs_commit _)))
  rw [schemaFile]
  refine Durable.ends_bind (t := f) (a := f.db.existed) rfl rfl fun n => ?_
  refine Durable.ends_bind (t := f.journaled) (a := ()) rfl rfl fun n => ?_
  cases f.db.existed with
  | false => exact performs_createProgram env n f.journaled
  | true =>
    refine Durable.ends_bind (t := f.journaled) (a := f.db.userVersion) rfl rfl fun n => ?_
    exact performs_existingProgram env _ n f.journaled

end SkillRegistry
