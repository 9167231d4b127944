import SkillRegistry.Store.Open
import Mathlib.Data.Finset.Dedup

/-!
# The schema of a database file

A file that is not of the current version lacks tables, columns, keys or indexes. A
`DbFile` is a database with its schema, and the statements that define the schema
are functions on it.

* `schemaStatements` are the statements of `_SCHEMA`, and `idempotencyStatements` those
  of `_IDEMPOTENCY_SCHEMA`;
* `requireLegacySchema` and its siblings are the checks of a start;
* `fileErrors` is the full verification where foreign keys may be missing; on a file
  that has them it is `integrityErrors` (`fileErrors_eq`).
-/

namespace SkillRegistry

open Wire

variable (P : Platform)

/-! ## Files -/

/-- A row of `PRAGMA foreign_key_list`. -/
structure ForeignKey where
  column : String
  table : String
  target : String
  onDelete : String
  deriving DecidableEq, Repr

/-- A table of a file: its columns, the columns of its primary key, and its foreign keys. -/
structure TableDef where
  columns : List String
  primaryKey : List String
  foreignKeys : List ForeignKey
  deriving DecidableEq, Repr

/-- An index of a file. -/
structure IndexDef where
  table : String
  columns : List String
  deriving DecidableEq, Repr

/-- `sqlite_master`: the tables and the indexes, by their names. -/
structure Schema where
  tables : List (String × TableDef)
  indexes : List (String × IndexDef)
  deriving DecidableEq, Repr

/-- A row of an `idempotency` table that has no `seq` yet; the auditor is only read where the
    table has the column. -/
structure LegacyRow where
  auditorId : PyStr
  key : PyStr
  bodySha256 : PyStr
  responseJson : PyStr
  expiresAt : Int
  deriving DecidableEq, Repr

/-- A database file with its schema. -/
structure DbFile where
  schema : Schema
  /-- The rows of the tables. -/
  db : Db
  /-- The rows of `idempotency` where the table has no `seq`. -/
  legacy : List LegacyRow
  deriving DecidableEq

namespace Schema

variable (s : Schema)

/-- The definition of a table. -/
def table? (name : String) : Option TableDef := s.tables.lookup name

/-- A table of the name exists. -/
def hasTable (name : String) : Bool := (s.table? name).isSome

/-- `_table_columns`. -/
def tableColumns (name : String) : Finset String :=
  ((s.table? name).elim [] (·.columns)).toFinset

/-- The columns of the primary key of a table. -/
def primaryKey (name : String) : List String := (s.table? name).elim [] (·.primaryKey)

/-- `PRAGMA foreign_key_list`. -/
def foreignKeys (name : String) : List ForeignKey := (s.table? name).elim [] (·.foreignKeys)

/-- An index of the name exists. -/
def hasIndex (name : String) : Bool := (s.indexes.lookup name).isSome

/-- `PRAGMA index_info`. -/
def indexColumns (name : String) : List String := (s.indexes.lookup name).elim [] (·.columns)

end Schema

/-- The rows of a new table. -/
def Db.cleared (db : Db) : String → Db
  | "log" => { db with log := .empty, logSequence := 0 }
  | "metadata" => { db with metadata := .empty }
  | "imported_records" => { db with imported := .empty }
  | "idempotency" => { db with idempotency := .empty }
  | "boundaries" => { db with boundaries := .empty }
  | "merkle_frontier" => { db with frontier := .empty }
  | "upstream_high_water" => { db with highWater := .empty }
  | _ => db

/-- The rows of the file, changed as a database. -/
def DbFile.onRows (f : Db → Except PyErr Db) (file : DbFile) : Except PyErr DbFile :=
  (f file.db).map fun db => { file with db := db }

/-- The file before the first start. -/
def DbFile.new : DbFile := ⟨⟨[], []⟩, .absent, []⟩

/-! ## Statements -/

/-- A statement that defines the schema, or a transaction. -/
abbrev FileStatement := DbFile → Except PyErr DbFile

/-- The file with a new table, which is empty. -/
def DbFile.addTable (f : DbFile) (name : String) (table : TableDef) : DbFile where
  schema := { f.schema with tables := (name, table) :: f.schema.tables }
  db := f.db.cleared name
  legacy := if name = "idempotency" then [] else f.legacy

/-- The file with a new index. -/
def DbFile.addIndex (f : DbFile) (name : String) (index : IndexDef) : DbFile :=
  { f with schema := { f.schema with indexes := (name, index) :: f.schema.indexes } }

/-- `CREATE TABLE`. -/
def createTable (ifNotExists : Bool) (name : String) (table : TableDef) : FileStatement := fun f =>
  if f.schema.hasTable name then
    if ifNotExists then .ok f
    else .error (.operationalError s!"table {name} already exists")
  else .ok (f.addTable name table)

/-- `CREATE INDEX`. -/
def createIndex (ifNotExists : Bool) (name : String) (index : IndexDef) : FileStatement := fun f =>
  if f.schema.hasIndex name then
    if ifNotExists then .ok f
    else .error (.operationalError s!"index {name} already exists")
  else .ok (f.addIndex name index)

/-- The index, after its table was renamed. -/
def IndexDef.renamed (name target : String) (i : IndexDef) : IndexDef :=
  { i with table := if i.table = name then target else i.table }

/-- The schema with a table renamed, and its indexes with it. -/
def Schema.renamed (s : Schema) (name target : String) : Schema where
  tables := s.tables.map fun t => (if t.1 = name then target else t.1, t.2)
  indexes := s.indexes.map fun i => (i.1, i.2.renamed name target)

/-- The schema without a table and its indexes. -/
def Schema.dropped (s : Schema) (name : String) : Schema where
  tables := s.tables.filter fun t => t.1 ≠ name
  indexes := s.indexes.filter fun i => i.2.table ≠ name

/-- `ALTER TABLE ... RENAME TO`. -/
def renameTable (name target : String) : FileStatement := fun f =>
  if f.schema.hasTable target || f.schema.hasIndex target then
    .error (.operationalError s!"there is already another table or index with this name: {target}")
  -- the rows are in the same field of `db` under either name
  else .ok { f with schema := f.schema.renamed name target }

/-- `DROP TABLE`. -/
def dropTable (name : String) : FileStatement := fun f =>
  .ok { f with schema := f.schema.dropped name }

/-- `seq INTEGER REFERENCES log(seq) ON DELETE RESTRICT`. -/
def seqForeignKey : ForeignKey := ⟨"seq", "log", "seq", "RESTRICT"⟩

/-- The import, without a sequence number. -/
def ImportedRow.unresolved (row : ImportedRow) : ImportedRow := { row with seq := none }

/-- The table with the column `seq`. -/
def TableDef.withSeq (t : TableDef) : TableDef :=
  { t with columns := t.columns ++ ["seq"], foreignKeys := seqForeignKey :: t.foreignKeys }

/-- The rows of `imported_records`, once the column was added. -/
def Db.unresolved (db : Db) : Db :=
  { db with imported := db.imported.map (f := ImportedRow.unresolved) fun _ => rfl }

/-- `ALTER TABLE imported_records ADD COLUMN seq`: the column is `NULL` in every row. -/
def addSeqColumn : FileStatement := fun f => .ok { f with
  schema := { f.schema with tables := f.schema.tables.map fun t =>
    (t.1, if t.1 = "imported_records" then t.2.withSeq else t.2) }
  db := f.db.unresolved }

/-- The columns of `log`. -/
def logColumns : List String :=
  ["seq", "entry_hash", "prev_hash", "name", "source_identity", "commit_hash", "content_sha256",
    "status", "record_json", "created_at"]

/-- The columns of `imported_records`. -/
def importedColumns : List String := ["fingerprint", "imported_at", "seq"]

/-- The columns of `idempotency`. -/
def idempotencyColumns : List String :=
  ["auditor_id", "key", "body_sha256", "response_json", "seq", "expires_at"]

/-- The columns of `boundaries`. -/
def boundaryColumns : List String := ["log_size", "head", "merkle_root", "created_at"]

/-- The columns of `upstream_high_water`. -/
def highWaterColumns : List String :=
  ["key_id", "version", "log_size", "head", "merkle_root", "updated_at"]

/-- `CREATE TABLE idempotency`. -/
def idempotencyTable : TableDef := ⟨idempotencyColumns, ["auditor_id", "key"], [seqForeignKey]⟩

/-- The index of the submissions by their expiry. -/
def expiryIndex : IndexDef := ⟨"idempotency", ["expires_at"]⟩

/-- The statements of `_SCHEMA`, by the table or the index they create. -/
def schemaStatements : List FileStatement :=
  [createTable true "log" ⟨logColumns, ["seq"], []⟩,
    createIndex true "idx_log_identity" ⟨"log", ["source_identity", "commit_hash"]⟩,
    createIndex true "idx_log_content" ⟨"log", ["content_sha256"]⟩,
    createTable true "metadata" ⟨["key", "value"], ["key"], []⟩,
    createTable true "imported_records" ⟨importedColumns, ["fingerprint"], [seqForeignKey]⟩,
    createTable true "boundaries" ⟨boundaryColumns, ["log_size"], []⟩,
    createTable true "merkle_frontier" ⟨["level", "len", "tail"], ["level"], []⟩,
    createTable true "upstream_high_water" ⟨highWaterColumns, ["key_id"], []⟩]

/-- The statements of `_IDEMPOTENCY_SCHEMA`. -/
def idempotencyStatements : List FileStatement :=
  [createTable false "idempotency" idempotencyTable,
    createIndex false "idx_idempotency_expiry" expiryIndex]

/-! ## Checks -/

/-- The layouts of `imported_records`. -/
def importedLayouts : List (Finset String) :=
  [["fingerprint", "imported_at"].toFinset, importedColumns.toFinset]

/-- The layouts of `idempotency`. -/
def idempotencyLayouts : List (Finset String) :=
  [["key", "body_sha256", "response_json", "expires_at"].toFinset,
    ["auditor_id", "key", "body_sha256", "response_json", "expires_at"].toFinset,
    idempotencyColumns.toFinset]

/-- A check of a file, with the message of its failure. -/
def require (c : Prop) [Decidable c] (message : String) : Except PyErr Unit :=
  if c then .ok () else .error (.storeIntegrityError message)

/-- The tables that a file without a version must have, and this one lacks, in their order. -/
def missingTables (f : DbFile) : List String :=
  ["idempotency", "imported_records", "log"].filter fun name => !f.schema.hasTable name

/-- The message that names them. -/
def missingMessage (f : DbFile) : String :=
  "legacy database schema is incomplete: missing " ++ ", ".intercalate (missingTables f)

/-- `_require_legacy_schema`. -/
def requireLegacySchema (f : DbFile) : Except PyErr Unit := do
  require (missingTables f = []) (missingMessage f)
  require (f.schema.tableColumns "log" = logColumns.toFinset)
    "legacy database schema for log is unsupported"
  require (f.schema.tableColumns "imported_records" ∈ importedLayouts)
    "legacy database schema for imported_records is unsupported"
  require (f.schema.tableColumns "idempotency" ∈ idempotencyLayouts)
    "legacy database schema for idempotency is unsupported"
  -- a creation that was interrupted may have left the table, but no version in it
  if f.schema.hasTable "metadata" then
    require (f.schema.tableColumns "metadata" = ["key", "value"].toFinset)
      "legacy database metadata schema is unsupported"
    require (f.db.metadataValue (py "schema_version") = none)
      "database schema version markers disagree; restore a verified backup"

/-- The tables of version 4, their columns, and the columns of their primary keys; versions 3 and 2
    have the first of them. -/
def requiredTables : List (String × List String × List String) :=
  [("log", logColumns, ["seq"]), ("metadata", ["key", "value"], ["key"]),
    ("imported_records", importedColumns, ["fingerprint"]),
    ("idempotency", idempotencyColumns, ["auditor_id", "key"]),
    ("boundaries", boundaryColumns, ["log_size"]),
    ("merkle_frontier", ["level", "len", "tail"], ["level"]),
    ("upstream_high_water", highWaterColumns, ["key_id"])]

/-- The indexes of version 4. -/
def requiredIndexes : List (String × List String) :=
  [("idx_log_identity", ["source_identity", "commit_hash"]),
    ("idx_log_content", ["content_sha256"]), ("idx_idempotency_expiry", ["expires_at"])]

/-- The check of the columns of tables. -/
def requireColumns (tables : List (String × List String × List String)) (f : DbFile) :
    Except PyErr Unit :=
  tables.forM fun (name, columns, _) => require (f.schema.tableColumns name = columns.toFinset)
    s!"database schema for {name} is unsupported"

/-- The check of the version in the metadata. -/
def requireVersion (marker : PyStr) (f : DbFile) : Except PyErr Unit :=
  require (f.db.metadataValue (py "schema_version") = some marker) markersDisagree

/-- `_require_current_schema`. -/
def requireCurrentSchema (f : DbFile) : Except PyErr Unit := do
  requireColumns requiredTables f
  requiredTables.forM fun (name, _, key) => require (f.schema.primaryKey name = key)
    s!"database primary key for {name} is malformed"
  requiredIndexes.forM fun (name, columns) => require (f.schema.indexColumns name = columns)
    s!"database index {name} is missing or malformed"
  ["imported_records", "idempotency"].forM fun name =>
    require (seqForeignKey ∈ f.schema.foreignKeys name)
      s!"database foreign key for {name}.seq is missing"
  requireVersion schemaVersion f

/-- `_require_v2_schema`. -/
def requireV2Schema (f : DbFile) : Except PyErr Unit := do
  requireColumns (requiredTables.take 4) f
  requireVersion (py "2") f

/-- `_require_v3_schema`. -/
def requireV3Schema (f : DbFile) : Except PyErr Unit := do
  requireColumns (requiredTables.take 6) f
  requireVersion (py "3") f

/-! ## Verification -/

/-- `PRAGMA foreign_key_check`, which looks at the tables that have the key. -/
def fileForeignKeyErrors (f : DbFile) : List String :=
  (if seqForeignKey ∈ f.schema.foreignKeys "imported_records" then
    f.db.imported.rows.flatMap fun row => flag (∃ seq ∈ row.seq, f.db.log.find? seq = none)
      "foreign key violation in imported_records referencing log"
  else []) ++
  if seqForeignKey ∈ f.schema.foreignKeys "idempotency" then
    f.db.idempotency.rows.flatMap fun row => flag (f.db.log.find? row.seq = none)
      "foreign key violation in idempotency referencing log"
  else []

/-- `_integrity_errors_on`, where tables may lack their foreign keys. -/
def fileErrors (f : DbFile) : Except PyErr (List String) := do
  let walked ← walk P 1 genesis f.db.log.rows
  let submissions ← f.db.idempotency.rows.mapM (submissionErrors P f.db)
  let imports ← f.db.imported.rows.mapM (importErrors P f.db)
  .ok (fileForeignKeyErrors f ++ metadataErrors f.db ++ walked ++ submissions.flatten ++
    imports.flatten ++ f.db.highWater.rows.flatMap fun row =>
      flag (¬row.wellFormed) s!"upstream high-water {pyRepr row.keyId} is malformed")

/-- The errors of a file end a start. -/
def requireSoundFile (f : DbFile) : Except PyErr Unit := do
  let errors ← fileErrors P f
  require (errors = []) ("; ".intercalate errors)

/-! ## What the statements do -/

theorem hasTable_eq_true {s : Schema} {name : String} :
    s.hasTable name = true ↔ ∃ table, s.table? name = some table := Option.isSome_iff_exists

theorem table?_addTable (f : DbFile) (name : String) (table : TableDef) (n : String) :
    (f.addTable name table).schema.table? n =
      if n = name then some table else f.schema.table? n := by
  rw [Schema.table?, DbFile.addTable, List.lookup_cons]
  by_cases h : n = name
  · rw [h, beq_self_eq_true, if_pos rfl]
  · rw [beq_false_of_ne h, if_neg h]
    rfl

theorem lookup_addIndex (f : DbFile) (name : String) (index : IndexDef) (n : String) :
    (f.addIndex name index).schema.indexes.lookup n =
      if n = name then some index else f.schema.indexes.lookup n := by
  rw [DbFile.addIndex, List.lookup_cons]
  by_cases h : n = name
  · rw [h, beq_self_eq_true, if_pos rfl]
  · rw [beq_false_of_ne h, if_neg h]

section

variable {α : Type} {l : List (String × α)} {n : String}

theorem lookup_map_snd (g : String → α → α) :
    (l.map fun t => (t.1, g t.1 t.2)).lookup n = (l.lookup n).map (g n) := by
  induction l with
  | nil => rfl
  | cons t l ih =>
    rw [List.map_cons, List.lookup_cons, List.lookup_cons, ih]
    by_cases h : n = t.1
    · rw [h, beq_self_eq_true]
      rfl
    · rw [beq_false_of_ne h]

theorem lookup_map_fst {name target : String} (hname : n ≠ name) (htarget : n ≠ target) :
    (l.map fun t => (if t.1 = name then target else t.1, t.2)).lookup n = l.lookup n := by
  induction l with
  | nil => rfl
  | cons t l ih =>
    rw [List.map_cons, List.lookup_cons, List.lookup_cons, ih]
    by_cases h : t.1 = name
    · rw [if_pos h, beq_false_of_ne htarget, beq_false_of_ne (h ▸ hname)]
    · rw [if_neg h]

theorem lookup_filter_fst {name : String} (h : n ≠ name) :
    (l.filter fun t => t.1 ≠ name).lookup n = l.lookup n := by
  induction l with
  | nil => rfl
  | cons t l ih =>
    rw [List.filter_cons, List.lookup_cons]
    by_cases ht : t.1 = name
    · rw [if_neg (by simpa using ht), ih, beq_false_of_ne (ht ▸ h)]
    · rw [if_pos (by simpa using ht), List.lookup_cons, ih]

theorem lookup_filter_eq_some {p : String × α → Bool} {a : α} (h : l.lookup n = some a)
    (hp : p (n, a) = true) : (l.filter p).lookup n = some a := by
  induction l with
  | nil => cases h
  | cons t l ih =>
    rw [List.lookup_cons] at h
    rw [List.filter_cons]
    by_cases ht : n = t.1
    · subst ht
      rw [beq_self_eq_true] at h
      obtain rfl := Option.some.inj h
      rw [if_pos hp, List.lookup_cons, beq_self_eq_true]
    · rw [beq_false_of_ne ht] at h
      split_ifs
      · rw [List.lookup_cons, beq_false_of_ne ht]
        exact ih h
      · exact ih h

theorem lookup_filter_eq_none {p : String × α → Bool} (h : l.lookup n = none) :
    (l.filter p).lookup n = none := by
  induction l with
  | nil => rfl
  | cons t l ih =>
    rw [List.lookup_cons] at h
    rw [List.filter_cons]
    by_cases ht : n = t.1
    · rw [ht, beq_self_eq_true] at h
      cases h
    · rw [beq_false_of_ne ht] at h
      split_ifs
      · rw [List.lookup_cons, beq_false_of_ne ht]
        exact ih h
      · exact ih h

end

theorem hasTable_renamed (s : Schema) {name target : String} (h : name ≠ target) :
    (s.renamed name target).hasTable name = false := by
  rw [Schema.hasTable, Option.isSome_eq_false_iff, Option.isNone_iff_eq_none]
  refine List.lookup_eq_none_iff.2 fun t ht => ?_
  obtain ⟨u, -, rfl⟩ := List.mem_map.1 ht
  dsimp only
  split_ifs with hu
  · exact bne_iff_ne.2 h
  · exact bne_iff_ne.2 (Ne.symm hu)

theorem lookup_indexes_renamed (s : Schema) (name target n : String) :
    (s.renamed name target).indexes.lookup n =
      (s.indexes.lookup n).map (IndexDef.renamed name target) :=
  lookup_map_snd fun _ => IndexDef.renamed name target

theorem createTable_eq_ok {b : Bool} {name : String} {table : TableDef} {f f' : DbFile}
    (h : createTable b name table f = .ok f') :
    f.schema.hasTable name = true ∧ b = true ∧ f' = f ∨
      f.schema.hasTable name = false ∧ f' = f.addTable name table := by
  rw [createTable] at h
  split_ifs at h with hexists hb
  · exact .inl ⟨hexists, hb, (Except.ok.inj h).symm⟩
  · exact .inr ⟨Bool.eq_false_of_not_eq_true hexists, (Except.ok.inj h).symm⟩

theorem createIndex_eq_ok {b : Bool} {name : String} {index : IndexDef} {f f' : DbFile}
    (h : createIndex b name index f = .ok f') :
    f.schema.hasIndex name = true ∧ b = true ∧ f' = f ∨
      f.schema.hasIndex name = false ∧ f' = f.addIndex name index := by
  rw [createIndex] at h
  split_ifs at h with hexists hb
  · exact .inl ⟨hexists, hb, (Except.ok.inj h).symm⟩
  · exact .inr ⟨Bool.eq_false_of_not_eq_true hexists, (Except.ok.inj h).symm⟩

theorem createTable_of_not {b : Bool} {name : String} {table : TableDef} {f : DbFile}
    (h : f.schema.hasTable name = false) :
    createTable b name table f = .ok (f.addTable name table) := by
  rw [createTable, if_neg (by rw [h]; exact Bool.false_ne_true)]

theorem createIndex_of_not {b : Bool} {name : String} {index : IndexDef} {f : DbFile}
    (h : f.schema.hasIndex name = false) :
    createIndex b name index f = .ok (f.addIndex name index) := by
  rw [createIndex, if_neg (by rw [h]; exact Bool.false_ne_true)]

theorem renameTable_eq_ok {name target : String} {f f' : DbFile} :
    renameTable name target f = .ok f' ↔
      f.schema.hasTable target = false ∧ f.schema.hasIndex target = false ∧
        f' = { f with schema := f.schema.renamed name target } := by
  rw [renameTable]
  by_cases h : (f.schema.hasTable target || f.schema.hasIndex target) = true
  · rw [if_pos h]
    refine iff_of_false (fun h' => by cases h') fun h' => ?_
    rw [h'.1, h'.2.1] at h
    exact Bool.false_ne_true h
  · have hfree := Bool.or_eq_false_iff.1 (Bool.eq_false_of_not_eq_true h)
    rw [if_neg h]
    exact ⟨fun h' => ⟨hfree.1, hfree.2, (Except.ok.inj h').symm⟩, fun h' => congrArg _ h'.2.2.symm⟩

theorem require_eq_ok {c : Prop} [Decidable c] {message : String} :
    require c message = .ok () ↔ c := by
  rw [require]
  split_ifs with h
  · exact iff_of_true rfl h
  · exact iff_of_false (fun h' => by cases h') h

theorem seq_eq_ok {x y : Except PyErr Unit} :
    (x >>= fun _ => y) = .ok () ↔ x = .ok () ∧ y = .ok () := by
  cases x with
  | ok u => exact (and_iff_right rfl).symm
  | error e => exact iff_of_false (fun h => by cases h) fun h => by cases h.1

theorem forM_require_eq_ok {α : Type} {l : List α} {c : α → Prop} [DecidablePred c]
    {message : α → String} :
    (l.forM fun a => require (c a) (message a)) = .ok () ↔ ∀ a ∈ l, c a := by
  induction l with
  | nil => exact iff_of_true rfl (List.forall_mem_nil _)
  | cons a l ih =>
    change (require (c a) (message a) >>= fun _ =>
      l.forM fun a => require (c a) (message a)) = _ ↔ _
    rw [seq_eq_ok, require_eq_ok, ih, List.forall_mem_cons]

/-- Where the tables have their foreign keys, the file is verified as its rows are. -/
theorem fileErrors_eq {P : Platform} {f : DbFile}
    (himported : seqForeignKey ∈ f.schema.foreignKeys "imported_records")
    (hidempotency : seqForeignKey ∈ f.schema.foreignKeys "idempotency") :
    fileErrors P f = integrityErrors P f.db := by
  have hkeys : fileForeignKeyErrors f = foreignKeyErrors f.db := by
    rw [fileForeignKeyErrors, if_pos himported, if_pos hidempotency, foreignKeyErrors]
  rw [fileErrors, hkeys, integrityErrors]

theorem requireLegacySchema_eq_ok {f : DbFile} : requireLegacySchema f = .ok () ↔
    (∀ name ∈ ["idempotency", "imported_records", "log"], f.schema.hasTable name = true) ∧
      f.schema.tableColumns "log" = logColumns.toFinset ∧
      f.schema.tableColumns "imported_records" ∈ importedLayouts ∧
      f.schema.tableColumns "idempotency" ∈ idempotencyLayouts ∧
      (f.schema.hasTable "metadata" = true →
        f.schema.tableColumns "metadata" = ["key", "value"].toFinset ∧
          f.db.metadataValue (py "schema_version") = none) := by
  have hmissing : missingTables f = [] ↔
      ∀ name ∈ ["idempotency", "imported_records", "log"], f.schema.hasTable name = true := by
    simp only [missingTables, List.filter_eq_nil_iff, Bool.not_eq_true', Bool.not_eq_false]
  rw [requireLegacySchema]
  simp only [seq_eq_ok, require_eq_ok, hmissing]
  refine and_congr_right fun _ => and_congr_right fun _ => and_congr_right fun _ =>
    and_congr_right fun _ => ?_
  split_ifs with h
  · rw [seq_eq_ok, require_eq_ok, require_eq_ok]
    exact ⟨fun h' _ => h', fun h' => h' h⟩
  · exact iff_of_true rfl fun h' => absurd h' h

end SkillRegistry
