import SkillRegistry.Store.Create

/-!
# Starts that are interrupted

A start may be killed between any two of its statements and transactions, or fail at
one of them, and is then run again on the file it left.

* `AgreesFile` relates the files that two starts end in, which read different clocks:
  they hold the same log and the same boundaries;
* `LaterFile` is what the parts of a creation keep of a file: what one of them has done
  stays done (`redo_schema`, `redo_created`, `redo_imports`, `redo_idempotency`);
* `resumes_createProgram`: a creation killed anywhere is led on by its second run;
* `triple_createProgram`, `triple_existingProgram`: what a start leaves of a file, by its
  version. A new file that has no table of the submissions yet is `Stranded`; from any
  other, later starts lead to where the first was going (`Left`).
-/

namespace SkillRegistry

open Wire

variable {P : Platform}

/-! ## Files that agree -/

/-- The second file is the first, up to when the service was created, where the start says so,
    and to submissions that have expired since. -/
inductive AgreesFile (f : DbFile) : DbFile → Prop
  | intro (metadata : Table MetadataRow.key) (idempotency : Table IdempotencyRow.primaryKey)
    (other : ∀ key, key ≠ py "created_at" → metadata.find? key = f.db.metadata.find? key)
    (created : metadata.find? (py "created_at") = f.db.metadata.find? (py "created_at") ∨
      ∃ t : Timestamp, metadata.find? (py "created_at") = some ⟨py "created_at", t.text⟩)
    (submissions : idempotency.rows ⊆ f.db.idempotency.rows) :
    AgreesFile f { f with db := { f.db with metadata := metadata, idempotency := idempotency } }

namespace AgreesFile

theorem refl (f : DbFile) : AgreesFile f f :=
  .intro f.db.metadata f.db.idempotency (fun _ _ => rfl) (.inl rfl) fun _ h => h

theorem trans {f g h : DbFile} (hfg : AgreesFile f g) (hgh : AgreesFile g h) : AgreesFile f h := by
  obtain ⟨m, t, hm, hc, ht⟩ := hfg
  obtain ⟨m', t', hm', hc', ht'⟩ := hgh
  refine .intro m' t' (fun key hkey => (hm' key hkey).trans (hm key hkey)) ?_ fun _ h => ht (ht' h)
  rcases hc' with hc' | hc'
  · rw [hc']
    exact hc
  · exact .inr hc'

end AgreesFile

theorem Db.cleared_replace (db : Db) (name : String) (m : Table MetadataRow.key)
    (t : Table IdempotencyRow.primaryKey) :
    Db.cleared { db with metadata := m, idempotency := t } name =
      { db.cleared name with
        metadata := if name = "metadata" then .empty else m
        idempotency := if name = "idempotency" then .empty else t } := by
  unfold Db.cleared
  split <;> first | rfl | skip
  rename_i h₁ h₂ h₃ h₄ h₅ h₆ h₇
  rw [if_neg h₂, if_neg h₄]

theorem Db.metadata_cleared (db : Db) (name : String) :
    (db.cleared name).metadata = if name = "metadata" then .empty else db.metadata := by
  unfold Db.cleared
  split <;> first | rfl | skip
  rename_i h₁ h₂ h₃ h₄ h₅ h₆ h₇
  rw [if_neg h₂]

theorem Db.idempotency_cleared (db : Db) (name : String) :
    (db.cleared name).idempotency = if name = "idempotency" then .empty else db.idempotency := by
  unfold Db.cleared
  split <;> first | rfl | skip
  rename_i h₁ h₂ h₃ h₄ h₅ h₆ h₇
  rw [if_neg h₄]

/-! ## Imports -/

/-- The rows of `imported_records` after `_migrate_imported_records`. -/
def resolvedImports (P : Platform) (log : Table LogRow.seq)
    (imported : Table ImportedRow.fingerprint) : Except PyErr (Table ImportedRow.fingerprint) :=
  let unresolved := imported.rows.filter fun row => row.seq = none
  if unresolved = [] then .ok imported
  else (fingerprintSeqs P log.rows).map fun seqs => unresolved.foldl (resolveImport seqs) imported

theorem migrateImportedRecords_eq (db : Db) : migrateImportedRecords P db =
    (resolvedImports P db.log db.imported).map fun imported =>
      { db with imported := imported } := by
  rw [migrateImportedRecords, resolvedImports]
  split_ifs
  · rfl
  · cases fingerprintSeqs P db.log.rows <;> rfl

/-- What is still unresolved after a row of each fingerprint was resolved has none in the log. -/
theorem mem_foldl_resolveImport {seqs : List (PyStr × Int)} {rows : List ImportedRow}
    {t : Table ImportedRow.fingerprint} {row : ImportedRow} (hseq : row.seq = none)
    (h : row ∈ (rows.foldl (resolveImport seqs) t).rows) :
    row ∈ t.rows ∧ (row ∈ rows → seqs.reverse.lookup row.fingerprint = none) := by
  induction rows generalizing t with
  | nil => exact ⟨h, fun hrow => absurd hrow List.not_mem_nil⟩
  | cons first rows ih =>
    obtain ⟨hmem, hrest⟩ := ih h
    rw [resolveImport] at hmem
    cases hlookup : seqs.reverse.lookup first.fingerprint with
    | none =>
      rw [hlookup] at hmem
      refine ⟨hmem, fun hrow => ?_⟩
      rcases List.mem_cons.1 hrow with rfl | hrow
      · exact hlookup
      · exact hrest hrow
    | some seq =>
      rw [hlookup] at hmem
      rcases Table.mem_put.1 hmem with rfl | ⟨hmem, hne⟩
      · cases hseq
      · refine ⟨hmem, fun hrow => ?_⟩
        rcases List.mem_cons.1 hrow with rfl | hrow
        · exact absurd rfl hne
        · exact hrest hrow

theorem foldl_resolveImport_eq_self {seqs : List (PyStr × Int)} {rows : List ImportedRow}
    {t : Table ImportedRow.fingerprint}
    (h : ∀ row ∈ rows, seqs.reverse.lookup row.fingerprint = none) :
    rows.foldl (resolveImport seqs) t = t := by
  induction rows with
  | nil => rfl
  | cons row rows ih =>
    obtain ⟨hrow, hrows⟩ := List.forall_mem_cons.1 h
    rw [List.foldl_cons, resolveImport, hrow]
    exact ih hrows

/-- The migration of the imports does nothing the second time. -/
theorem resolvedImports_again {log : Table LogRow.seq} {t t' : Table ImportedRow.fingerprint}
    (h : resolvedImports P log t = .ok t') : resolvedImports P log t' = .ok t' := by
  rw [resolvedImports] at h
  split_ifs at h with hnone
  · obtain rfl := Except.ok.inj h
    exact if_pos hnone
  · obtain ⟨seqs, hseqs, rfl⟩ := Wire.Except.map_eq_ok h
    rw [resolvedImports]
    split_ifs
    · rfl
    · rw [hseqs]
      refine congrArg Except.ok (foldl_resolveImport_eq_self fun row hrow => ?_)
      obtain ⟨hmem, hseq⟩ := List.mem_filter.1 hrow
      obtain ⟨hold, hlookup⟩ := mem_foldl_resolveImport (of_decide_eq_true hseq) hmem
      exact hlookup (List.mem_filter.2 ⟨hold, hseq⟩)

/-! ## Files on the way -/

/-- The indexes of `log`. -/
def logIndexes : List String := ["idx_log_identity", "idx_log_content"]

/-- A file that a start without a version found, or left. -/
structure Begun (f : DbFile) : Prop where
  existed : f.db.existed = true
  version : f.db.userVersion = 0
  unmarked : f.schema.hasTable "metadata" = true →
    f.db.metadataValue (py "schema_version") = none
  log : f.schema.hasTable "log" = true → f.schema.tableColumns "log" = logColumns.toFinset
  metadata : f.schema.hasTable "metadata" = true →
    f.schema.tableColumns "metadata" = ["key", "value"].toFinset
  imported : f.schema.hasTable "imported_records" = true →
    f.schema.tableColumns "imported_records" ∈ importedLayouts
  idempotency : f.schema.hasTable "idempotency" = true →
    f.schema.tableColumns "idempotency" ∈ idempotencyLayouts ∧
      f.schema.hasTable "log" = true ∧ f.schema.hasTable "imported_records" = true
  indexes : ∀ name ∈ logIndexes, ∀ index, f.schema.indexes.lookup name = some index →
    index.table = "log"

/-- A start recognises the file once it has a table of the submissions. -/
theorem Begun.requireLegacySchema {f : DbFile} (h : Begun f)
    (ht : f.schema.hasTable "idempotency" = true) :
    SkillRegistry.requireLegacySchema f = .ok () := by
  obtain ⟨hcolumns, hlog, himported⟩ := h.idempotency ht
  refine requireLegacySchema_eq_ok.2 ⟨?_, h.log hlog, h.imported himported, hcolumns, fun hm =>
    ⟨h.metadata hm, h.unmarked hm⟩⟩
  exact List.forall_mem_cons.2 ⟨ht, List.forall_mem_cons.2 ⟨himported, List.forall_mem_cons.2
    ⟨hlog, List.forall_mem_nil _⟩⟩⟩

/-- A file that a start takes for one without a version. -/
theorem begun_of_legacy {f : DbFile} (hexisted : f.db.existed = true)
    (hversion : f.db.userVersion = 0) (h : requireLegacySchema f = .ok ())
    (hindexes : ∀ name ∈ logIndexes, ∀ index, f.schema.indexes.lookup name = some index →
      index.table = "log") : Begun f := by
  obtain ⟨htables, hlog, himported, hidempotency, hmetadata⟩ := requireLegacySchema_eq_ok.1 h
  have hhas (name : String) (hname : name ∈ ["idempotency", "imported_records", "log"]) :=
    htables name hname
  exact ⟨hexisted, hversion, fun hm => (hmetadata hm).2, fun _ => hlog, fun hm => (hmetadata hm).1,
    fun _ => himported, fun _ => ⟨hidempotency, hhas _ (by decide), hhas _ (by decide)⟩, hindexes⟩

/-- The tables that hold the records. -/
def RecordTables (f : DbFile) : Prop :=
  f.schema.hasTable "log" = true ∧ f.schema.hasTable "imported_records" = true

/-- The imports have their sequence numbers, as far as the log has them. -/
def ImportsResolved (P : Platform) (f : DbFile) : Prop :=
  RecordTables f ∧ "seq" ∈ f.schema.tableColumns "imported_records" ∧
    resolvedImports P f.db.log f.db.imported = .ok f.db.imported

/-- The second file is one that a start may have left later than the first. -/
structure LaterFile (P : Platform) (f g : DbFile) : Prop where
  begun : Begun f → Begun g
  log : g.db.log = f.db.log ∨ f.schema.hasTable "log" = false ∧ g.db.log = .empty
  tables : ∀ name, name ≠ "idempotency_legacy" → f.schema.hasTable name = true →
    g.schema.hasTable name = true
  indexes : Begun f → ∀ name ∈ logIndexes, f.schema.hasIndex name = true →
    g.schema.hasIndex name = true
  created : f.schema.hasTable "metadata" = true →
    (f.db.metadataValue (py "created_at")).isSome = true →
    (g.db.metadataValue (py "created_at")).isSome = true
  seqColumn : "seq" ∈ f.schema.tableColumns "imported_records" →
    "seq" ∈ g.schema.tableColumns "imported_records"
  resolved : ImportsResolved P f → ImportsResolved P g
  current : f.idempotencyCurrent = true → g.idempotencyCurrent = true
  expiry : f.idempotencyCurrent = true → f.schema.hasIndex "idx_idempotency_expiry" = true →
    g.schema.hasIndex "idx_idempotency_expiry" = true

namespace LaterFile

theorem refl (f : DbFile) : LaterFile P f f :=
  ⟨id, .inl rfl, fun _ _ h => h, fun _ _ _ h => h, fun _ h => h, id, id, id, fun _ h => h⟩

theorem trans {f g h : DbFile} (hfg : LaterFile P f g) (hgh : LaterFile P g h) :
    LaterFile P f h where
  begun hf := hgh.begun (hfg.begun hf)
  log := by
    rcases hgh.log with hlog | ⟨htable, hempty⟩
    · rw [hlog]
      exact hfg.log
    · refine .inr ⟨Bool.eq_false_of_not_eq_true fun hf => ?_, hempty⟩
      exact Bool.false_ne_true (htable.symm.trans (hfg.tables _ (by decide) hf))
  tables name hname hf := hgh.tables name hname (hfg.tables name hname hf)
  indexes hf name hname hi := hgh.indexes (hfg.begun hf) name hname (hfg.indexes hf name hname hi)
  created hf hc := hgh.created (hfg.tables _ (by decide) hf) (hfg.created hf hc)
  seqColumn hf := hgh.seqColumn (hfg.seqColumn hf)
  resolved hf := hgh.resolved (hfg.resolved hf)
  current hf := hgh.current (hfg.current hf)
  expiry hf hi := hgh.expiry (hfg.current hf) (hfg.expiry hf hi)

theorem recordTables {f g : DbFile} (h : LaterFile P f g) (hf : RecordTables f) : RecordTables g :=
  ⟨h.tables _ (by decide) hf.1, h.tables _ (by decide) hf.2⟩

end LaterFile

/-! ## Statements -/

theorem tableColumns_addTable (f : DbFile) (name : String) (table : TableDef) (n : String) :
    (f.addTable name table).schema.tableColumns n =
      if n = name then table.columns.toFinset else f.schema.tableColumns n := by
  rw [Schema.tableColumns, table?_addTable]
  split_ifs <;> rfl

theorem hasTable_addTable (f : DbFile) (name : String) (table : TableDef) (n : String) :
    (f.addTable name table).schema.hasTable n = (decide (n = name) || f.schema.hasTable n) := by
  rw [Schema.hasTable, table?_addTable]
  by_cases h : n = name
  · rw [if_pos h, decide_eq_true h]
    rfl
  · rw [if_neg h, decide_eq_false h]
    rfl

theorem hasTable_of_mem {s : Schema} {name column : String} (h : column ∈ s.tableColumns name) :
    s.hasTable name = true := by
  cases ht : s.table? name with
  | some table => exact hasTable_eq_true.2 ⟨table, ht⟩
  | none =>
    rw [Schema.tableColumns, ht] at h
    exact absurd h (List.mem_toFinset.not.2 List.not_mem_nil)

theorem hasTable_of_current {f : DbFile} (h : f.idempotencyCurrent = true) :
    f.schema.hasTable "idempotency" = true := by
  rw [DbFile.idempotencyCurrent, Bool.and_eq_true] at h
  exact hasTable_of_mem (of_decide_eq_true h.1)

/-- What is cleared is the table. -/
theorem Db.cleared_frame (db : Db) (name : String) :
    (db.cleared name).existed = db.existed ∧ (db.cleared name).userVersion = db.userVersion ∧
      (name ≠ "log" → (db.cleared name).log = db.log) ∧
      (name ≠ "imported_records" → (db.cleared name).imported = db.imported) := by
  unfold Db.cleared
  split <;> refine ⟨rfl, rfl, fun h => ?_, fun h => ?_⟩ <;> first | rfl | exact absurd rfl h

/-- The table has the columns that a start looks for under its name. -/
def WellKnown (name : String) (table : TableDef) : Prop :=
  (name = "log" → table.columns.toFinset = logColumns.toFinset) ∧
    (name = "metadata" → table.columns.toFinset = ["key", "value"].toFinset) ∧
    (name = "imported_records" → table.columns.toFinset = importedColumns.toFinset) ∧
    (name = "idempotency" → table.columns.toFinset = idempotencyColumns.toFinset)

instance (name : String) (table : TableDef) : Decidable (WellKnown name table) :=
  inferInstanceAs (Decidable (_ ∧ _ ∧ _ ∧ _))

theorem begun_addTable {f : DbFile} {name : String} {table : TableDef} (h : Begun f)
    (hknown : WellKnown name table) (hrecords : name = "idempotency" → RecordTables f) :
    Begun (f.addTable name table) := by
  obtain ⟨hlog, hmetadata, himported, hidempotency⟩ := hknown
  obtain ⟨hexisted, hversion, -, -⟩ := Db.cleared_frame f.db name
  have hold {n : String} (hn : n ≠ name) (ht : (f.addTable name table).schema.hasTable n = true) :
      f.schema.hasTable n = true := by
    rwa [hasTable_addTable, decide_eq_false hn, Bool.false_or] at ht
  have hadded {n : String} (hn : f.schema.hasTable n = true) :
      (f.addTable name table).schema.hasTable n = true := by
    rw [hasTable_addTable, hn, Bool.or_true]
  refine ⟨hexisted.trans h.existed, hversion.trans h.version, fun ht => ?_, fun ht => ?_,
    fun ht => ?_, fun ht => ?_, fun ht => ?_, h.indexes⟩
  · -- a new table of the metadata has no marker of the version
    rw [DbFile.addTable, Db.metadataValue, Db.metadata_cleared]
    by_cases hn : name = "metadata"
    · rw [if_pos hn]
      rfl
    · rw [if_neg hn]
      exact h.unmarked (hold (Ne.symm hn) ht)
  · rw [tableColumns_addTable]
    split_ifs with hn
    · exact hlog hn.symm
    · exact h.log (hold hn ht)
  · rw [tableColumns_addTable]
    split_ifs with hn
    · exact hmetadata hn.symm
    · exact h.metadata (hold hn ht)
  · rw [tableColumns_addTable]
    split_ifs with hn
    · rw [himported hn.symm]
      exact List.mem_cons_of_mem _ List.mem_cons_self
    · exact h.imported (hold hn ht)
  · rw [tableColumns_addTable]
    split_ifs with hn
    · rw [hidempotency hn.symm]
      have hrecords := hrecords hn.symm
      exact ⟨List.mem_cons_of_mem _ (List.mem_cons_of_mem _ List.mem_cons_self), hadded hrecords.1,
        hadded hrecords.2⟩
    · obtain ⟨hcolumns, hl, hi⟩ := h.idempotency (hold hn ht)
      exact ⟨hcolumns, hadded hl, hadded hi⟩

theorem later_addTable {f : DbFile} {name : String} {table : TableDef}
    (hnew : f.schema.hasTable name = false) (hknown : WellKnown name table)
    (hrecords : name = "idempotency" → RecordTables f) : LaterFile P f (f.addTable name table) := by
  have hne {n : String} (hn : f.schema.hasTable n = true) : n ≠ name := by
    rintro rfl
    exact Bool.false_ne_true (hnew.symm.trans hn)
  have hadded {n : String} (hn : f.schema.hasTable n = true) :
      (f.addTable name table).schema.hasTable n = true := by
    rw [hasTable_addTable, hn, Bool.or_true]
  have hcolumns {n column : String} (h : column ∈ f.schema.tableColumns n) :
      column ∈ (f.addTable name table).schema.tableColumns n := by
    rw [tableColumns_addTable, if_neg (hne (hasTable_of_mem h))]
    exact h
  obtain ⟨-, -, hlog, himported⟩ := Db.cleared_frame f.db name
  refine ⟨fun h => begun_addTable h hknown hrecords, ?_, fun _ _ => hadded, fun _ _ _ h => h,
    fun ht hc => ?_, hcolumns, fun hold => ?_, fun h => ?_, fun _ h => h⟩
  · by_cases hn : name = "log"
    · subst hn
      exact .inr ⟨hnew, rfl⟩
    · exact .inl (hlog hn)
  · rwa [DbFile.addTable, Db.metadataValue, Db.metadata_cleared, if_neg (Ne.symm (hne ht))]
  · obtain ⟨htables, hseq, hresolved⟩ := hold
    refine ⟨⟨hadded htables.1, hadded htables.2⟩, hcolumns hseq, ?_⟩
    change resolvedImports P (f.db.cleared name).log (f.db.cleared name).imported =
      .ok (f.db.cleared name).imported
    rw [hlog (Ne.symm (hne htables.1)), himported (Ne.symm (hne htables.2)), hresolved]
  · rw [DbFile.idempotencyCurrent, Bool.and_eq_true] at h ⊢
    exact ⟨decide_eq_true (hcolumns (of_decide_eq_true h.1)),
      decide_eq_true (hcolumns (of_decide_eq_true h.2))⟩

theorem hasIndex_addIndex_self (f : DbFile) (name : String) (index : IndexDef) :
    (f.addIndex name index).schema.hasIndex name = true := by
  rw [Schema.hasIndex, lookup_addIndex, if_pos rfl]
  rfl

theorem later_addIndex {f : DbFile} {name : String} {index : IndexDef}
    (hlog : name ∈ logIndexes → index.table = "log") : LaterFile P f (f.addIndex name index) := by
  have hadded {n : String} (hn : f.schema.hasIndex n = true) :
      (f.addIndex name index).schema.hasIndex n = true := by
    rw [Schema.hasIndex, lookup_addIndex]
    split_ifs
    · rfl
    · exact hn
  refine ⟨fun h => ⟨h.existed, h.version, h.unmarked, h.log, h.metadata, h.imported, h.idempotency,
    fun n hn i hi => ?_⟩, .inl rfl, fun _ _ h => h, fun _ _ _ => hadded, fun _ h => h, id, id, id,
    fun _ => hadded⟩
  rw [lookup_addIndex] at hi
  split_ifs at hi with heq
  · obtain rfl := Option.some.inj hi
    exact hlog (heq ▸ hn)
  · exact h.indexes n hn i hi

/-- The index of the expiry times is not one of the log. -/
theorem later_addExpiryIndex (f : DbFile) :
    LaterFile P f (f.addIndex "idx_idempotency_expiry" expiryIndex) :=
  later_addIndex fun hlog => absurd hlog (by decide)

/-- The comparison of two starts. -/
def starting (P : Platform) : Durable.Resumption DbFile where
  Valid := Begun
  Later := LaterFile P
  Agrees := AgreesFile
  later_refl := LaterFile.refl
  later_trans := LaterFile.trans
  agrees_refl := AgreesFile.refl
  valid := LaterFile.begun

/-! ## Statements that are run again -/

theorem respects_createTable (b : Bool) (name : String) (table : TableDef) :
    (starting P).Respects (createTable b name table) (createTable b name table) := by
  intro f _ f' hagrees hf
  obtain ⟨m, t, hm, hc, ht⟩ := hagrees
  rcases createTable_eq_ok hf with ⟨hexists, rfl, rfl⟩ | ⟨hnew, rfl⟩
  · exact ⟨_, (if_pos hexists).trans (if_pos rfl), .intro m t hm hc ht⟩
  refine ⟨_, createTable_of_not hnew, ?_⟩
  -- a new table is empty on both sides, whatever rows stood under its name
  have hcleared := Db.cleared_replace f.db name m t
  have hmetadata := Db.metadata_cleared f.db name
  have hidempotency := Db.idempotency_cleared f.db name
  have hagrees := AgreesFile.intro (f := f.addTable name table)
    (if name = "metadata" then .empty else m) (if name = "idempotency" then .empty else t)
  rw [DbFile.addTable, DbFile.addTable, hcleared]
  refine hagrees (fun key hkey => ?_) ?_ ?_
  · rw [DbFile.addTable, hmetadata]
    split_ifs
    · rfl
    · exact hm key hkey
  · rw [DbFile.addTable, hmetadata]
    split_ifs
    · exact .inl rfl
    · exact hc
  · rw [DbFile.addTable, hidempotency]
    split_ifs
    · exact fun _ h => h
    · exact ht

theorem respects_createIndex (b : Bool) (name : String) (index : IndexDef) :
    (starting P).Respects (createIndex b name index) (createIndex b name index) := by
  intro f _ f' hagrees hf
  obtain ⟨m, t, hm, hc, ht⟩ := hagrees
  rcases createIndex_eq_ok hf with ⟨hexists, rfl, rfl⟩ | ⟨hnew, rfl⟩
  · exact ⟨_, (if_pos hexists).trans (if_pos rfl), .intro m t hm hc ht⟩
  · exact ⟨_, createIndex_of_not hnew, .intro m t hm hc ht⟩

/-- A table is created once. -/
theorem redo_createTable {name : String} {table : TableDef} (hname : name ≠ "idempotency")
    (hname' : name ≠ "idempotency_legacy") (hknown : WellKnown name table) :
    Durable.Redo (starting P) (fun _ => True) (fun f => f.schema.hasTable name = true)
      (Durable.commit (createTable true name table)) (createTable true name table)
      (createTable true name table) := by
  refine Durable.redo_commit (respects_createTable true name table) (fun f f' _ _ h => ?_)
    (fun f f' _ _ h => ?_) (fun _ _ hlater h => hlater.tables name hname' h) fun f h => ?_
  · -- `IF NOT EXISTS`: the table is there already, or it is added
    rcases createTable_eq_ok h with ⟨-, -, rfl⟩ | ⟨hnew, rfl⟩
    · exact .refl _
    · exact later_addTable hnew hknown fun h => absurd h hname
  · rcases createTable_eq_ok h with ⟨hexists, -, rfl⟩ | ⟨-, rfl⟩
    · exact hexists
    · rw [hasTable_addTable, decide_eq_true rfl, Bool.true_or]
  · exact (if_pos h).trans (if_pos rfl)

/-- An index of the log is created once. -/
theorem redo_createIndex {name : String} {index : IndexDef} (hname : name ∈ logIndexes)
    (hlog : index.table = "log") :
    Durable.Redo (starting P) (fun _ => True) (fun f => Begun f ∧ f.schema.hasIndex name = true)
      (Durable.commit (createIndex true name index)) (createIndex true name index)
      (createIndex true name index) := by
  have hlater {f f' : DbFile} (h : createIndex true name index f = .ok f') : LaterFile P f f' := by
    rcases createIndex_eq_ok h with ⟨-, -, rfl⟩ | ⟨-, rfl⟩
    · exact .refl _
    · exact later_addIndex fun _ => hlog
  refine Durable.redo_commit (respects_createIndex true name index) (fun _ _ _ _ => hlater)
    (fun f f' hvalid _ h => ⟨(hlater h).begun hvalid, ?_⟩)
    (fun _ _ hst h => ⟨hst.begun h.1, hst.indexes h.1 name hname h.2⟩) fun f h => ?_
  · rcases createIndex_eq_ok h with ⟨hexists, -, rfl⟩ | ⟨-, rfl⟩
    · exact hexists
    · exact hasIndex_addIndex_self f name index
  · exact (if_pos h.2).trans (if_pos rfl)

/-- The statements of `_SCHEMA`, and when they are done. -/
def schemaParts : List (FileStatement × (DbFile → Prop)) :=
  schemaStatements.zip
    [fun f => f.schema.hasTable "log" = true,
      fun f => Begun f ∧ f.schema.hasIndex "idx_log_identity" = true,
      fun f => Begun f ∧ f.schema.hasIndex "idx_log_content" = true,
      fun f => f.schema.hasTable "metadata" = true,
      fun f => f.schema.hasTable "imported_records" = true,
      fun f => f.schema.hasTable "boundaries" = true,
      fun f => f.schema.hasTable "merkle_frontier" = true,
      fun f => f.schema.hasTable "upstream_high_water" = true]

theorem redo_schema :
    Durable.Redo (starting P) (fun _ => True) (fun f => ∀ part ∈ schemaParts, part.2 f)
      (executeScript schemaStatements) (Durable.compose schemaStatements)
      (Durable.compose schemaStatements) := by
  refine Durable.redo_sequence (ρ := starting P) (F := Prod.fst) (D := Prod.snd)
    (l := schemaParts) ?_
  simp only [schemaParts, schemaStatements, List.zip_cons_cons, List.zip_nil_right,
    List.forall_mem_cons]
  exact ⟨redo_createTable (by decide) (by decide) (by decide), redo_createIndex (by decide) rfl,
    redo_createIndex (by decide) rfl, redo_createTable (by decide) (by decide) (by decide),
    redo_createTable (by decide) (by decide) (by decide),
    redo_createTable (by decide) (by decide) (by decide),
    redo_createTable (by decide) (by decide) (by decide),
    redo_createTable (by decide) (by decide) (by decide), List.forall_mem_nil _⟩

/-! ## Parts that are run again -/

/-- The time of creation is stored. -/
def CreatedStored (f : DbFile) : Prop :=
  RecordTables f ∧ f.schema.hasTable "metadata" = true ∧
    (f.db.metadataValue (py "created_at")).isSome = true

theorem recordTables_of_schema {f : DbFile} (h : ∀ part ∈ schemaParts, part.2 f) :
    RecordTables f ∧ f.schema.hasTable "metadata" = true := by
  simp only [schemaParts, schemaStatements, List.zip_cons_cons, List.zip_nil_right,
    List.forall_mem_cons] at h
  obtain ⟨hlog, -, -, hmetadata, himported, -⟩ := h
  exact ⟨⟨hlog, himported⟩, hmetadata⟩

/-- A change of the rows of a file. -/
theorem onRows_eq_ok {g : Db → Except PyErr Db} {f f' : DbFile} :
    f.onRows g = .ok f' ↔ ∃ db, g f.db = .ok db ∧ f' = { f with db := db } := by
  rw [DbFile.onRows]
  cases g f.db with
  | ok db =>
    refine ⟨fun h => ⟨db, rfl, (Except.ok.inj h).symm⟩, ?_⟩
    rintro ⟨db', hdb, rfl⟩
    exact Except.ok.inj hdb ▸ rfl
  | error e => exact iff_of_false (fun h => by cases h) fun h => by cases h.choose_spec.1

theorem respects_initializeCreationMetadata (now now' : Timestamp) :
    (starting P).Respects (DbFile.onRows (initializeCreationMetadata now))
      (DbFile.onRows (initializeCreationMetadata now')) := by
  intro f _ f' hagrees hf
  obtain ⟨m, t, hm, hc, ht⟩ := hagrees
  obtain ⟨db, hdb, rfl⟩ := onRows_eq_ok.1 hf
  obtain rfl := Except.ok.inj hdb
  refine ⟨_, rfl, .intro (m.put ⟨py "created_at", _⟩) t (fun key hkey => ?_) ?_ ht⟩
  · rw [Db.putMetadata, Table.find?_put, Table.find?_put, if_neg hkey, if_neg hkey]
    exact hm key hkey
  rw [Db.putMetadata, Table.find?_put, Table.find?_put, if_pos rfl, if_pos rfl]
  simp only [Db.metadataValue]
  rcases hc with hc | ⟨s, hc⟩
  · -- neither start, or both, found a time of creation
    rw [hc]
    cases f.db.metadata.find? (py "created_at") with
    | some row => exact .inl rfl
    | none =>
      cases f.db.log.rows.head? with
      | some row => exact .inl rfl
      | none => exact .inr ⟨now', rfl⟩
  · -- the second start found a time that it had read from its own clock
    rw [hc]
    exact .inr ⟨s, rfl⟩

theorem redo_created (env env' : StartEnv) :
    Durable.Redo (starting P) (fun f => ∀ part ∈ schemaParts, part.2 f) CreatedStored
      (Durable.commit (DbFile.onRows (initializeCreationMetadata env.createdAt)))
      (DbFile.onRows (initializeCreationMetadata env.createdAt))
      (DbFile.onRows (initializeCreationMetadata env'.createdAt)) := by
  have hstep {f f' : DbFile} (h : f.onRows (initializeCreationMetadata env.createdAt) = .ok f') :
      ∃ value, f' = { f with db := f.db.putMetadata (py "created_at") value } := by
    obtain ⟨db, hdb, rfl⟩ := onRows_eq_ok.1 h
    obtain rfl := Except.ok.inj hdb
    exact ⟨_, rfl⟩
  have hvalue (db : Db) (value : PyStr) : ((db.putMetadata (py "created_at") value).metadataValue
      (py "created_at")).isSome = true := by
    rw [metadataValue_putMetadata, if_pos rfl]
    rfl
  refine Durable.redo_commit (respects_initializeCreationMetadata _ _) (fun f f' _ _ h => ?_)
    (fun f f' _ hpre h => ?_) (fun f g hlater ⟨htables, hmetadata, hcreated⟩ => ?_) fun f h => ?_
  · -- the version marker has another key, so that the file stays unmarked
    obtain ⟨value, rfl⟩ := hstep h
    have hne : py "schema_version" ≠ py "created_at" := by decide
    refine ⟨fun hf => ⟨hf.existed, hf.version, fun hm => ?_, hf.log, hf.metadata, hf.imported,
      hf.idempotency, hf.indexes⟩, .inl rfl, fun _ _ h => h, fun _ _ _ h => h,
      fun _ _ => hvalue _ _, id, id, id, fun _ h => h⟩
    rw [metadataValue_putMetadata, if_neg hne]
    exact hf.unmarked hm
  · obtain ⟨value, rfl⟩ := hstep h
    obtain ⟨htables, hmetadata⟩ := recordTables_of_schema hpre
    exact ⟨htables, hmetadata, hvalue _ _⟩
  · exact ⟨hlater.recordTables htables, hlater.tables _ (by decide) hmetadata,
      hlater.created hmetadata hcreated⟩
  · -- the time that is stored is stored again
    obtain ⟨value, hvalue⟩ := Option.isSome_iff_exists.1 h.2.2
    refine onRows_eq_ok.2 ⟨_, rfl, ?_⟩
    rw [hvalue, Db.putMetadata, Table.put_self]
    rw [Db.metadataValue, Option.map_eq_some_iff] at hvalue
    obtain ⟨⟨key, value⟩, hrow, rfl⟩ := hvalue
    obtain rfl : key = py "created_at" := (Table.find?_eq_some.1 hrow).2
    exact hrow

/-! ### Imports -/

theorem tableColumns_map (f : DbFile) (n : String) (g : String → TableDef → TableDef) :
    Schema.tableColumns
        { f.schema with tables := f.schema.tables.map fun t => (t.1, g t.1 t.2) } n =
      ((f.schema.table? n).elim [] fun table => (g n table).columns).toFinset := by
  rw [Schema.tableColumns, Schema.table?, lookup_map_snd, Schema.table?]
  cases f.schema.tables.lookup n <;> rfl

theorem hasTable_map (f : DbFile) (n : String) (g : String → TableDef → TableDef) :
    Schema.hasTable { f.schema with tables := f.schema.tables.map fun t => (t.1, g t.1 t.2) } n =
      f.schema.hasTable n := by
  rw [Schema.hasTable, Schema.table?, lookup_map_snd, Option.isSome_map]
  rfl

/-- The column is added to the one table. -/
theorem addSeqColumn_frame {f f' : DbFile} (h : addSeqColumn f = .ok f') :
    f'.db = f.db.unresolved ∧ f'.schema.indexes = f.schema.indexes ∧
      (∀ n, f'.schema.hasTable n = f.schema.hasTable n) ∧
      (∀ n, n ≠ "imported_records" → f'.schema.tableColumns n = f.schema.tableColumns n) ∧
      (f.schema.hasTable "imported_records" = true →
        ∀ column, column ∈ f'.schema.tableColumns "imported_records" ↔
          column ∈ f.schema.tableColumns "imported_records" ∨ column = "seq") := by
  obtain rfl := Except.ok.inj h
  refine ⟨rfl, rfl, fun n => hasTable_map f n fun name table =>
    if name = "imported_records" then table.withSeq else table, fun n hn => ?_, fun ht column => ?_⟩
  · refine (tableColumns_map f n fun name table =>
      if name = "imported_records" then table.withSeq else table).trans ?_
    simp only [if_neg hn]
    rfl
  · have hcolumns := tableColumns_map f "imported_records" fun name table =>
      if name = "imported_records" then table.withSeq else table
    obtain ⟨table, htable⟩ := hasTable_eq_true.1 ht
    rw [hcolumns, Schema.tableColumns, htable]
    simp only [if_true, Option.elim_some, List.mem_toFinset, TableDef.withSeq, List.mem_append,
      List.mem_singleton]

theorem respects_addSeqColumn : (starting P).Respects addSeqColumn addSeqColumn := by
  intro f _ f' hagrees hf
  obtain ⟨m, t, hm, hc, ht⟩ := hagrees
  obtain rfl := Except.ok.inj hf
  exact ⟨_, rfl, .intro m t hm hc ht⟩

theorem later_addSeqColumn {f f' : DbFile} (hf : Begun f)
    (hseq : "seq" ∉ f.schema.tableColumns "imported_records")
    (htables : RecordTables f) (h : addSeqColumn f = .ok f') : LaterFile P f f' := by
  obtain ⟨hdb, hindexes, hhas, hcolumns, himported⟩ := addSeqColumn_frame h
  have himported := himported htables.2
  have hindex (n : String) : f'.schema.hasIndex n = f.schema.hasIndex n := by
    rw [Schema.hasIndex, hindexes, Schema.hasIndex]
  have hcurrent : f'.idempotencyCurrent = f.idempotencyCurrent := by
    rw [DbFile.idempotencyCurrent, hcolumns "idempotency" (by decide), DbFile.idempotencyCurrent]
  have hvalue (key : PyStr) : f'.db.metadataValue key = f.db.metadataValue key := by
    rw [hdb]
    rfl
  have hlayout : f'.schema.tableColumns "imported_records" ∈ importedLayouts := by
    have hold := hf.imported htables.2
    rw [importedLayouts, List.mem_pair] at hold
    -- of the two layouts the one without the column becomes the other
    rcases hold with hold | hold
    · have heq : f'.schema.tableColumns "imported_records" = importedColumns.toFinset := by
        ext column
        rw [himported, hold]
        simp [importedColumns, or_assoc]
      exact heq ▸ List.mem_cons_of_mem _ List.mem_cons_self
    · rw [hold] at hseq
      exact absurd (by decide) hseq
  refine ⟨fun _ => ⟨?_, ?_, fun hm => ?_, fun hl => ?_, fun hm => ?_, fun _ => hlayout,
    fun hi => ?_, ?_⟩, .inl (by rw [hdb]; rfl), fun n _ hn => (hhas n).trans hn,
    fun _ n _ hn => (hindex n).trans hn, fun _ hc => ?_,
    fun h => absurd h hseq, fun h => absurd h.2.1 hseq, fun h => hcurrent.trans h,
    fun _ hi => (hindex _).trans hi⟩
  · rw [hdb]
    exact hf.existed
  · rw [hdb]
    exact hf.version
  · exact (hvalue _).trans (hf.unmarked ((hhas _).symm.trans hm))
  · exact (hcolumns _ (by decide)).trans (hf.log htables.1)
  · exact (hcolumns _ (by decide)).trans (hf.metadata ((hhas _).symm.trans hm))
  · obtain ⟨h₁, h₂, h₃⟩ := hf.idempotency ((hhas _).symm.trans hi)
    exact ⟨(hcolumns "idempotency" (by decide)).symm ▸ h₁, (hhas _).trans h₂, (hhas _).trans h₃⟩
  · rw [hindexes]
    exact hf.indexes
  · rwa [hvalue]

/-- The imports of a file, after their migration. -/
theorem onRows_migrate_eq_ok {f f' : DbFile} :
    f.onRows (migrateImportedRecords P) = .ok f' ↔
      ∃ imported, resolvedImports P f.db.log f.db.imported = .ok imported ∧
        f' = { f with db := { f.db with imported := imported } } := by
  rw [onRows_eq_ok]
  constructor
  · rintro ⟨db, hdb, rfl⟩
    rw [migrateImportedRecords_eq] at hdb
    obtain ⟨imported, himported, rfl⟩ := Wire.Except.map_eq_ok hdb
    exact ⟨imported, himported, rfl⟩
  · rintro ⟨imported, himported, rfl⟩
    exact ⟨_, by rw [migrateImportedRecords_eq, himported]; rfl, rfl⟩

theorem later_migrateImports {f f' : DbFile} (h : f.onRows (migrateImportedRecords P) = .ok f') :
    LaterFile P f f' := by
  obtain ⟨imported, himported, rfl⟩ := onRows_migrate_eq_ok.1 h
  -- what was resolved is resolved to the same rows
  refine ⟨fun hf => ⟨hf.existed, hf.version, hf.unmarked, hf.log, hf.metadata, hf.imported,
    hf.idempotency, hf.indexes⟩, .inl rfl, fun _ _ h => h, fun _ _ _ h => h, fun _ h => h, id,
    fun hold => ⟨hold.1, hold.2.1, ?_⟩, id, fun _ h => h⟩
  obtain ⟨-, -, hresolved⟩ := hold
  obtain rfl := Except.ok.inj (hresolved.symm.trans himported)
  exact hresolved

theorem respects_migrateImports : (starting P).Respects
    (DbFile.onRows (migrateImportedRecords P)) (DbFile.onRows (migrateImportedRecords P)) := by
  intro f _ f' hagrees hf
  obtain ⟨m, t, hm, hc, ht⟩ := hagrees
  obtain ⟨imported, himported, rfl⟩ := onRows_migrate_eq_ok.1 hf
  exact ⟨_, onRows_migrate_eq_ok.2 ⟨imported, himported, rfl⟩, .intro m t hm hc ht⟩

theorem agrees_schema {f g : DbFile} (h : AgreesFile f g) :
    g.schema = f.schema ∧ g.db.imported = f.db.imported := by
  obtain ⟨m, t, -, -, -⟩ := h
  exact ⟨rfl, rfl⟩

/-- The imports are migrated once. -/
theorem redo_imports : Durable.Redo (starting P) CreatedStored
    (fun f => (CreatedStored f ∧ "seq" ∈ f.schema.tableColumns "imported_records") ∧
      ImportsResolved P f) (migrateImports P) (importsFile P) (importsFile P) := by
  have hstays {f g : DbFile} (hlater : LaterFile P f g) (h : CreatedStored f) : CreatedStored g :=
    ⟨hlater.recordTables h.1, hlater.tables _ (by decide) h.2.1, hlater.created h.2.1 h.2.2⟩
  refine Durable.Redo.andThen (C := fun f => CreatedStored f ∧
    "seq" ∈ f.schema.tableColumns "imported_records") ?_ ?_ fun _ h => h
  -- first the column, where it is missing; then its values, where one is `NULL`
  · refine Durable.redo_when (fun f g h => by rw [(agrees_schema h).1]) respects_addSeqColumn
      (fun f f' hvalid hpre hseq h => later_addSeqColumn hvalid hseq hpre.1 h)
      (fun f f' hvalid hpre h => ?_) (fun f g hlater h => ⟨hstays hlater h.1, hlater.seqColumn h.2⟩)
      fun f h hseq => absurd h.2 hseq
    rw [Durable.onlyIf] at h
    split_ifs at h with hseq
    · obtain rfl := Except.ok.inj h
      exact ⟨hpre, hseq⟩
    · have hlater : LaterFile P f f' := later_addSeqColumn hvalid hseq hpre.1 h
      obtain ⟨-, -, -, -, himported⟩ := addSeqColumn_frame h
      exact ⟨hstays hlater hpre, (himported hpre.1.2 "seq").2 (.inr rfl)⟩
  · refine Durable.redo_when (fun f g h => by rw [(agrees_schema h).2]) respects_migrateImports
      (fun f f' _ _ _ h => later_migrateImports h) (fun f f' _ hpre h => ?_)
      (fun f g hlater => hlater.resolved) fun f h _ => ?_
    · rw [Durable.onlyIf] at h
      split_ifs at h with hunresolved
      · obtain ⟨imported, himported, rfl⟩ := onRows_migrate_eq_ok.1 h
        exact ⟨hpre.1.1, hpre.2, resolvedImports_again himported⟩
      · obtain rfl := Except.ok.inj h
        refine ⟨hpre.1.1, hpre.2, if_pos (List.filter_eq_nil_iff.2 fun row hrow => ?_)⟩
        intro hseq
        exact hunresolved ⟨row, hrow, of_decide_eq_true hseq⟩
    · exact onRows_migrate_eq_ok.2 ⟨f.db.imported, h.2.2, rfl⟩

/-- The tables of `_SCHEMA`, the time of creation and the imports. -/
theorem redo_prepare (env env' : StartEnv) : ∃ D : DbFile → Prop, (∀ f, D f → RecordTables f) ∧
    Durable.Redo (starting P) (fun _ => True) D (prepareProgram P env) (prepareFile P env)
      (prepareFile P env') :=
  ⟨_, fun _ h => h.2.1.1, redo_schema.andThen
    ((redo_created env env').andThen redo_imports fun _ h => h) fun _ h => h⟩

/-! ### Submissions -/

theorem insertLegacy_eq_ok {log : Table LogRow.seq} {t t' : Table IdempotencyRow.primaryKey}
    {row : LegacyRow} : insertLegacy P log t row = .ok t' ↔
      ∃ submission, row.submission P = .ok submission ∧ bindInt [submission.seq] = .ok () ∧
        t.find? submission.primaryKey = none ∧ (log.find? submission.seq).isSome = true ∧
        t' = t.put submission := by
  rw [insertLegacy]
  constructor
  · intro h
    obtain ⟨submission, hs, h⟩ := Wire.Except.bind_eq_ok h
    obtain ⟨u, hbind, h⟩ := Wire.Except.bind_eq_ok h
    cases hinsert : t.insert? submission with
    | none =>
      rw [hinsert] at h
      cases h
    | some t₁ =>
      rw [hinsert] at h
      obtain ⟨hfree, rfl⟩ := Table.insert?_eq_some.1 hinsert
      dsimp only at h
      split_ifs at h with hlog
      exact ⟨submission, hs, hbind, hfree, hlog, (Except.ok.inj h).symm⟩
  · rintro ⟨submission, hs, hbind, hfree, hlog, rfl⟩
    have hinsert : t.insert? submission = some (t.put submission) :=
      Table.insert?_eq_some.2 ⟨hfree, rfl⟩
    rw [hs]
    change (bindInt [submission.seq] >>= fun _ => _) = _
    simp only [hbind, hinsert, bind, Except.bind]
    exact if_pos hlog

/-- Fewer rows are inserted where more rows were. -/
theorem foldlM_insertLegacy_sublist {log : Table LogRow.seq} {rows rows' : List LegacyRow}
    {t t' u : Table IdempotencyRow.primaryKey} (hrows : rows'.Sublist rows) (ht : t'.rows ⊆ t.rows)
    (hu : rows.foldlM (insertLegacy P log) t = .ok u) :
    ∃ u', rows'.foldlM (insertLegacy P log) t' = .ok u' ∧ u'.rows ⊆ u.rows := by
  have hput {t : Table IdempotencyRow.primaryKey} {row : IdempotencyRow}
      (hfree : t.find? row.primaryKey = none) : t.rows ⊆ (t.put row).rows := fun x hx =>
    Table.mem_put.2 (.inr ⟨hx, Table.find?_eq_none.1 hfree x hx⟩)
  induction hrows generalizing t t' with
  | slnil =>
    obtain rfl := Except.ok.inj hu
    exact ⟨t', rfl, ht⟩
  | cons row _ ih =>
    -- a row that has expired since: the larger table has one row more
    rw [List.foldlM_cons] at hu
    obtain ⟨t₁, ht₁, hu⟩ := Wire.Except.bind_eq_ok hu
    obtain ⟨submission, -, -, hfree, -, rfl⟩ := insertLegacy_eq_ok.1 ht₁
    exact ih (fun x hx => hput hfree (ht hx)) hu
  | cons_cons row _ ih =>
    rw [List.foldlM_cons] at hu
    obtain ⟨t₁, ht₁, hu⟩ := Wire.Except.bind_eq_ok hu
    obtain ⟨submission, hs, hbind, hfree, hlog, rfl⟩ := insertLegacy_eq_ok.1 ht₁
    -- what is free in the larger table is free in the smaller one
    have hfree' : t'.find? submission.primaryKey = none :=
      Table.find?_eq_none.2 fun x hx => Table.find?_eq_none.1 hfree x (ht hx)
    have hrow : insertLegacy P log t' row = .ok (t'.put submission) :=
      insertLegacy_eq_ok.2 ⟨submission, hs, hbind, hfree', hlog, rfl⟩
    have hboth : (t'.put submission).rows ⊆ (t.put submission).rows := by
      intro x hx
      rcases Table.mem_put.1 hx with rfl | ⟨hx, hne⟩
      · exact Table.mem_put.2 (.inl rfl)
      · exact Table.mem_put.2 (.inr ⟨ht hx, hne⟩)
    obtain ⟨u', hu', hsub⟩ := ih hboth hu
    exact ⟨u', by rw [List.foldlM_cons, hrow]; exact hu', hsub⟩

theorem unexpiredLegacy_eq_ok {now : Int} {f : DbFile} {legacy : List LegacyRow} :
    unexpiredLegacy now f = .ok legacy ↔ legacy = f.legacy.filter (fun row => now < row.expiresAt) ∧
      (legacy ≠ [] → "auditor_id" ∈ f.schema.tableColumns "idempotency") := by
  rw [unexpiredLegacy]
  split_ifs with h
  · refine iff_of_false (fun h' => by cases h') ?_
    rintro ⟨rfl, h'⟩
    exact h.2 (h' h.1)
  · constructor
    · intro h'
      obtain rfl := Except.ok.inj h'
      exact ⟨rfl, fun hne => not_not.1 fun hc => h ⟨hne, hc⟩⟩
    · rintro ⟨rfl, -⟩
      rfl

/-- A later clock migrates fewer submissions. -/
theorem respects_idempotencyFile {now now' : Int} (hnow : now ≤ now') :
    (starting P).Respects (idempotencyFile P now) (idempotencyFile P now') := by
  intro f g f' hagrees hf
  have hcreated : (starting P).Respects (Durable.compose idempotencyStatements)
      (Durable.compose idempotencyStatements) :=
    (respects_createTable false _ _).kleisli
      ((respects_createIndex false _ _).kleisli Durable.respects_ok)
  have hindexed := respects_createIndex (P := P) true "idx_idempotency_expiry" expiryIndex
  have hschema := (agrees_schema hagrees).1
  have hcurrent : g.idempotencyCurrent = f.idempotencyCurrent := by
    rw [DbFile.idempotencyCurrent, hschema, DbFile.idempotencyCurrent]
  rw [Durable.Resumption.Leads, idempotencyFile, hschema, hcurrent]
  rw [idempotencyFile] at hf
  split_ifs at hf ⊢ with htable hcolumns
  · exact hcreated f g f' hagrees hf
  · exact hindexed f g f' hagrees hf
  · obtain ⟨legacy, hlegacy, hf⟩ := Wire.Except.bind_eq_ok hf
    obtain ⟨rfl, hscope⟩ := unexpiredLegacy_eq_ok.1 hlegacy
    obtain ⟨hfree, submissions, hsubmissions, rfl⟩ := replaceIdempotency_eq_ok.1 hf
    obtain ⟨m, t, hm, hc, -⟩ := hagrees
    -- the rows that are unexpired later are among those that are unexpired now
    have hsublist : (f.legacy.filter fun row => now' < row.expiresAt).Sublist
        (f.legacy.filter fun row => now < row.expiresAt) := by
      refine List.monotone_filter_right _ fun row hrow => ?_
      exact decide_eq_true (hnow.trans_lt (of_decide_eq_true hrow))
    obtain ⟨submissions', hsubmissions', hsub⟩ :=
      foldlM_insertLegacy_sublist hsublist (fun _ h => h) hsubmissions
    have hlegacy' : unexpiredLegacy now'
        { f with db := { f.db with metadata := m, idempotency := t } } =
          .ok (f.legacy.filter fun row => now' < row.expiresAt) :=
      unexpiredLegacy_eq_ok.2 ⟨rfl, fun hne => hscope fun hnil => hne (List.sublist_nil.1
        (hnil ▸ hsublist))⟩
    refine ⟨⟨f.schema.replaced, { f.db with metadata := m, idempotency := submissions' }, []⟩, ?_,
      .intro m submissions' hm hc hsub⟩
    rw [hlegacy']
    exact replaceIdempotency_eq_ok.2 ⟨hfree, submissions', hsubmissions', rfl⟩

theorem later_replaceIdempotency {f f' : DbFile} {legacy : List LegacyRow}
    (htables : RecordTables f) (h : replaceIdempotency P legacy f = .ok f') : LaterFile P f f' ∧
      f'.idempotencyCurrent = true ∧ f'.schema.hasIndex "idx_idempotency_expiry" = true := by
  obtain ⟨-, submissions, -, rfl⟩ := replaceIdempotency_eq_ok.1 h
  have hkept {n : String} (hn : n ≠ "idempotency") (hn' : n ≠ "idempotency_legacy") :
      f.schema.replaced.table? n = f.schema.table? n := table?_replaced_of_ne f.schema hn hn'
  have hhas {n : String} (hn : n ≠ "idempotency") (hn' : n ≠ "idempotency_legacy") :
      f.schema.replaced.hasTable n = f.schema.hasTable n := by
    rw [Schema.hasTable, hkept hn hn', Schema.hasTable]
  have hcolumns {n : String} (hn : n ≠ "idempotency") (hn' : n ≠ "idempotency_legacy") :
      f.schema.replaced.tableColumns n = f.schema.tableColumns n := by
    rw [Schema.tableColumns, hkept hn hn', Schema.tableColumns]
  have hcurrent : DbFile.idempotencyCurrent
      ⟨f.schema.replaced, { f.db with idempotency := submissions }, []⟩ = true := by
    rw [DbFile.idempotencyCurrent, Schema.tableColumns, table?_replaced]
    decide
  have hrecords : RecordTables
      ⟨f.schema.replaced, { f.db with idempotency := submissions }, []⟩ :=
    ⟨(hhas (by decide) (by decide)).trans htables.1, (hhas (by decide) (by decide)).trans htables.2⟩
  have hindex (hf : Begun f) {n : String} (hn : n ∈ logIndexes) :
      f.schema.replaced.indexes.lookup n = f.schema.indexes.lookup n := by
    refine lookup_indexes_replaced f.schema ?_ (hf.indexes n hn)
    rintro rfl
    revert hn
    decide
  refine ⟨⟨fun hf => ⟨hf.existed, hf.version, fun hm => hf.unmarked
    ((hhas (by decide) (by decide)).symm.trans hm), fun _ => ?_, fun hm => ?_, fun _ => ?_,
    fun _ => ⟨?_, hrecords⟩,
    fun n hn index hi => hf.indexes n hn index ((hindex hf hn).symm.trans hi)⟩,
    .inl rfl, fun n hn ht => ?_, fun hf n hn hi => ?_, fun _ hc => hc, fun hs => ?_,
    fun hold => ⟨hrecords, ?_, hold.2.2⟩, fun _ => hcurrent,
    fun _ _ => hasIndex_replaced f.schema⟩,
    hcurrent, hasIndex_replaced f.schema⟩
  · exact (hcolumns (by decide) (by decide)).trans (hf.log htables.1)
  · exact (hcolumns (by decide) (by decide)).trans
      (hf.metadata ((hhas (by decide) (by decide)).symm.trans hm))
  · exact (hcolumns (n := "imported_records") (by decide) (by decide)).symm ▸ hf.imported htables.2
  · rw [Schema.tableColumns, table?_replaced]
    exact List.mem_cons_of_mem _ (List.mem_cons_of_mem _ List.mem_cons_self)
  · by_cases hn' : n = "idempotency"
    · rw [hn']
      rfl
    · exact (hhas hn' hn).trans ht
  · rw [Schema.hasIndex, hindex hf hn]
    exact hi
  · exact (hcolumns (n := "imported_records") (by decide) (by decide)).symm ▸ hs
  · exact (hcolumns (n := "imported_records") (by decide) (by decide)).symm ▸ hold.2.1

/-- The two statements of `_IDEMPOTENCY_SCHEMA`, with the file between them. -/
theorem exists_of_compose_idempotency {f f' : DbFile}
    (htable : f.schema.hasTable "idempotency" = false) (htables : RecordTables f)
    (h : Durable.compose idempotencyStatements f = .ok f') :
    ∃ f₁, createTable false "idempotency" idempotencyTable f = .ok f₁ ∧
      createIndex false "idx_idempotency_expiry" expiryIndex f₁ = .ok f' ∧
      LaterFile P f f₁ ∧ LaterFile P f f' ∧ f₁.idempotencyCurrent = true ∧
      f'.idempotencyCurrent = true ∧ f'.schema.hasIndex "idx_idempotency_expiry" = true := by
  obtain ⟨f₁, h₁, h⟩ := Durable.kleisli_eq_ok h
  obtain ⟨f₂, h₂, h⟩ := Durable.kleisli_eq_ok h
  obtain rfl := Except.ok.inj h
  rcases createTable_eq_ok h₁ with ⟨-, hb, -⟩ | ⟨-, rfl⟩
  · cases hb
  rcases createIndex_eq_ok h₂ with ⟨-, hb, -⟩ | ⟨-, rfl⟩
  · cases hb
  have hlater : LaterFile P f (f.addTable "idempotency" idempotencyTable) :=
    later_addTable htable (by decide) fun _ => htables
  have hcurrent : (f.addTable "idempotency" idempotencyTable).idempotencyCurrent = true := by
    rw [DbFile.idempotencyCurrent, tableColumns_addTable, if_pos rfl]
    decide
  exact ⟨_, h₁, h₂, hlater, hlater.trans (later_addExpiryIndex _), hcurrent, hcurrent,
    hasIndex_addIndex_self _ _ _⟩

/-- The submissions are migrated once. -/
theorem redo_idempotency {now now' : Int} (hnow : now ≤ now') :
    Durable.Redo (starting P) RecordTables (fun f => f.idempotencyCurrent = true ∧
      f.schema.hasIndex "idx_idempotency_expiry" = true) (migrateIdempotency P now)
      (idempotencyFile P now) (idempotencyFile P now') := by
  have hcases {f f' : DbFile} (htables : RecordTables f) (h : idempotencyFile P now f = .ok f') :
      LaterFile P f f' ∧ f'.idempotencyCurrent = true ∧
        f'.schema.hasIndex "idx_idempotency_expiry" = true := by
    rw [idempotencyFile] at h
    split_ifs at h with htable hcurrent
    -- no table, a current one (of which the index may be missing), an older one
    · obtain ⟨f₁, -, -, -, hlater, -, hdone⟩ := exists_of_compose_idempotency
        (by simpa using htable) htables h
      exact ⟨hlater, hdone⟩
    · rcases createIndex_eq_ok h with ⟨hexists, -, rfl⟩ | ⟨-, rfl⟩
      · exact ⟨.refl _, hcurrent, hexists⟩
      · exact ⟨later_addExpiryIndex f, hcurrent, hasIndex_addIndex_self f _ _⟩
    · obtain ⟨legacy, -, h⟩ := Wire.Except.bind_eq_ok h
      exact later_replaceIdempotency htables h
  refine ⟨⟨performs_migrateIdempotency now, respects_idempotencyFile hnow,
    fun f f' _ htables h => ?_⟩, fun f f' _ htables h => (hcases htables h).1,
    fun f f' _ htables h => (hcases htables h).2,
    fun f g hlater h => ⟨hlater.current h.1, hlater.expiry h.1 h.2⟩, fun f h => ?_⟩
  · have hstart : LaterFile P f f ∧ (starting P).Leads (idempotencyFile P now') f' f :=
      ⟨.refl f, respects_idempotencyFile hnow f f f' (.refl f) h⟩
    have hcommit {s : FileStatement} (hs : s f = .ok f') : Durable.Triple (· = f)
        (Durable.commit s)
        (fun k => LaterFile P f k ∧ (starting P).Leads (idempotencyFile P now') f' k)
        (fun _ => (· = f'))
        (fun k => LaterFile P f k ∧ (starting P).Leads (idempotencyFile P now') f' k) :=
      Durable.triple_commit_of_ok hstart hstart hs
    refine Durable.triple_query hstart fun found hfound => ?_
    obtain rfl := Except.ok.inj hfound
    rw [idempotencyFile] at h
    by_cases htable : (!f.schema.hasTable "idempotency") = true
    · -- two statements: between them the table is there, and its index is not
      rw [if_pos htable] at h ⊢
      obtain ⟨f₁, h₁, h₂, hlater₁, -, hcurrent₁, -⟩ :=
        exists_of_compose_idempotency (by simpa using htable) htables h
      have hbetween : LaterFile P f f₁ ∧ (starting P).Leads (idempotencyFile P now') f' f₁ := by
        refine ⟨hlater₁, f', ?_, .refl f'⟩
        rw [idempotencyFile, hasTable_of_current hcurrent₁, if_neg (by decide), if_pos hcurrent₁]
        rcases createIndex_eq_ok h₂ with ⟨-, hb, -⟩ | ⟨hfree, rfl⟩
        · cases hb
        · exact createIndex_of_not hfree
      exact Durable.triple_bind (Durable.triple_commit_of_ok hstart hstart h₁) fun _ =>
        Durable.triple_bind (Durable.triple_commit_of_ok hbetween hbetween h₂) fun _ =>
          Durable.triple_pure (Q := fun _ => (· = f')) ()
    rw [if_neg htable] at h ⊢
    refine Durable.triple_query hstart fun current hcurrent => ?_
    obtain rfl := Except.ok.inj hcurrent
    by_cases hcurrent : f.idempotencyCurrent = true
    · rw [if_pos hcurrent] at h ⊢
      exact hcommit h
    · -- an older table is replaced in one transaction
      rw [if_neg hcurrent] at h ⊢
      obtain ⟨legacy, hlegacy, h⟩ := Wire.Except.bind_eq_ok h
      refine Durable.triple_query hstart fun legacy' hlegacy' => ?_
      obtain rfl := Except.ok.inj (hlegacy'.symm.trans hlegacy)
      exact hcommit h
  · rw [idempotencyFile, hasTable_of_current h.1, if_neg (by decide), if_pos h.1]
    exact (if_pos h.2).trans (if_pos rfl)

/-! ## Verification -/

theorem requireSoundFile_eq_ok {f : DbFile} :
    requireSoundFile P f = .ok () ↔ fileErrors P f = .ok [] := by
  rw [requireSoundFile]
  cases fileErrors P f with
  | ok errors =>
    exact require_eq_ok.trans ⟨fun h => congrArg Except.ok h, fun h => Except.ok.inj h⟩
  | error e => exact iff_of_false (fun h => by cases h) fun h => by cases h

theorem fileForeignKeyErrors_eq_nil {f : DbFile} : fileForeignKeyErrors f = [] ↔
    (seqForeignKey ∈ f.schema.foreignKeys "imported_records" → ∀ row ∈ f.db.imported.rows,
      ∀ seq ∈ row.seq, f.db.log.find? seq ≠ none) ∧
    (seqForeignKey ∈ f.schema.foreignKeys "idempotency" → ∀ row ∈ f.db.idempotency.rows,
      f.db.log.find? row.seq ≠ none) := by
  rw [fileForeignKeyErrors, List.append_eq_nil_iff]
  refine and_congr ?_ ?_
  · split_ifs with h
    · simp only [List.flatMap_eq_nil_iff, flag_eq_nil, h, true_implies, not_exists, not_and, ne_eq]
    · exact iff_of_true rfl fun h' => absurd h' h
  · split_ifs with h
    · simp only [List.flatMap_eq_nil_iff, flag_eq_nil, h, true_implies, ne_eq]
    · exact iff_of_true rfl fun h' => absurd h' h

theorem fileErrors_eq_nil {f : DbFile} : fileErrors P f = .ok [] ↔
    walk P 1 genesis f.db.log.rows = .ok [] ∧
    (∀ row ∈ f.db.idempotency.rows, submissionErrors P f.db row = .ok []) ∧
    (∀ row ∈ f.db.imported.rows, importErrors P f.db row = .ok []) ∧
    fileForeignKeyErrors f = [] ∧ metadataErrors f.db = [] ∧
    ∀ row ∈ f.db.highWater.rows, row.wellFormed = true := by
  have hhigh : (f.db.highWater.rows.flatMap fun row =>
      flag (¬row.wellFormed) s!"upstream high-water {pyRepr row.keyId} is malformed") = [] ↔
        ∀ row ∈ f.db.highWater.rows, row.wellFormed = true := by
    simp only [List.flatMap_eq_nil_iff, flag_eq_nil, not_not]
  rw [fileErrors]
  constructor
  · intro h
    obtain ⟨walked, hw, h⟩ := Wire.Except.bind_eq_ok h
    obtain ⟨submissions, hs, h⟩ := Wire.Except.bind_eq_ok h
    obtain ⟨imports, hi, h⟩ := Wire.Except.bind_eq_ok h
    have hnil := Except.ok.inj h
    simp only [List.append_eq_nil_iff] at hnil
    obtain ⟨⟨⟨⟨⟨hf, hm⟩, rfl⟩, hs'⟩, hi'⟩, hh⟩ := hnil
    exact ⟨hw, mapM_flatten_eq_nil.1 ⟨_, hs, hs'⟩, mapM_flatten_eq_nil.1 ⟨_, hi, hi'⟩, hf, hm,
      hhigh.1 hh⟩
  · rintro ⟨hw, hs, hi, hf, hm, hh⟩
    obtain ⟨submissions, hs, hs'⟩ := mapM_flatten_eq_nil.2 hs
    obtain ⟨imports, hi, hi'⟩ := mapM_flatten_eq_nil.2 hi
    rw [hw, hs, hi]
    simp only [bind, Except.bind, hf, hm, hs', hi', hhigh.2 hh, List.append_nil]

/-- A file that agrees with a sound one is sound. -/
theorem AgreesFile.fileErrors {f g : DbFile} (h : AgreesFile f g)
    (hf : SkillRegistry.fileErrors P f = .ok []) : SkillRegistry.fileErrors P g = .ok [] := by
  obtain ⟨m, t, hm, hc, ht⟩ := h
  obtain ⟨hwalk, hsubmissions, himports, hkeys, hmetadata, hhigh⟩ := fileErrors_eq_nil.1 hf
  obtain ⟨⟨created, hcreated, hvalid⟩, hversion⟩ := metadataErrors_eq_nil.1 hmetadata
  have hne : py "schema_version" ≠ py "created_at" := by decide
  refine fileErrors_eq_nil.2 ⟨hwalk, fun row hrow => hsubmissions row (ht hrow), himports, ?_, ?_,
    hhigh⟩
  · obtain ⟨h₁, h₂⟩ := fileForeignKeyErrors_eq_nil.1 hkeys
    exact fileForeignKeyErrors_eq_nil.2 ⟨h₁, fun hk row hrow => h₂ hk row (ht hrow)⟩
  · refine metadataErrors_eq_nil.2
      ⟨?_, (congrArg (Option.map MetadataRow.value) (hm _ hne)).trans hversion⟩
    rcases hc with hc | ⟨s, hc⟩
    · exact ⟨created, (congrArg (Option.map MetadataRow.value) hc).trans hcreated, hvalid⟩
    · exact ⟨s.text, congrArg (Option.map MetadataRow.value) hc, s.valid⟩

theorem AgreesFile.migrated {f g : DbFile} (h : AgreesFile f g) (version : Nat) (marker : PyStr) :
    AgreesFile { f with db := SkillRegistry.migrated version marker f.db }
      { g with db := SkillRegistry.migrated version marker g.db } := by
  obtain ⟨m, t, hm, hc, ht⟩ := h
  have hne : py "created_at" ≠ py "schema_version" := by decide
  refine .intro (m.put ⟨py "schema_version", marker⟩) t (fun key hkey => ?_) ?_ ht
  · rw [SkillRegistry.migrated, Db.putMetadata, Table.find?_put, Table.find?_put]
    split_ifs
    · rfl
    · exact hm key hkey
  · rw [SkillRegistry.migrated, Db.putMetadata, Table.find?_put, Table.find?_put, if_neg hne,
      if_neg hne]
    exact hc

/-- A check of the file, and the file as it was checked. -/
theorem markFile_eq_ok {f f' : DbFile} : markFile P f = .ok f' ↔
    f' = { f with db := migrated 4 schemaVersion f.db } ∧ fileErrors P f' = .ok [] := by
  rw [markFile]
  constructor
  · intro h
    obtain ⟨u, hsound, h⟩ := Wire.Except.bind_eq_ok h
    obtain rfl := Except.ok.inj h
    exact ⟨rfl, requireSoundFile_eq_ok.1 hsound⟩
  · rintro ⟨rfl, h⟩
    exact congrArg (· >>= _) (requireSoundFile_eq_ok.2 h)

theorem respects_markFile : (starting P).Respects (markFile P) (markFile P) := by
  intro f g f' hagrees hf
  obtain ⟨rfl, hsound⟩ := markFile_eq_ok.1 hf
  have hmarked := hagrees.migrated 4 schemaVersion
  exact ⟨_, markFile_eq_ok.2 ⟨rfl, hmarked.fileErrors hsound⟩, hmarked⟩

/-- The creation of a file, interrupted anywhere, is led on by its second run. -/
theorem resumes_createProgram {env env' : StartEnv} (hnow : env.now ≤ env'.now) :
    Durable.Resumes (starting P) (fun _ => True) (createProgram P env) (createFile P env)
      (createFile P env') := by
  obtain ⟨D, hD, hprepare⟩ := redo_prepare (P := P) env env'
  exact hprepare.resumes ((redo_idempotency hnow).resumes
    (Durable.resumes_commit (B := fun _ => True) respects_markFile) fun _ _ => trivial) hD

/-! ## Starts -/

/-- The boundaries and the frontier that are filled in depend on neither the metadata nor the
    submissions. -/
theorem ensureBoundaries_replace (db : Db) (m : Table MetadataRow.key)
    (t : Table IdempotencyRow.primaryKey) :
    ensureBoundaries P none { db with metadata := m, idempotency := t } =
      (ensureBoundaries P none db).map fun db' => { db' with metadata := m, idempotency := t } := by
  rw [ensureBoundaries, ensureBoundaries]
  dsimp only
  -- both read the log and the two caches, which are those of `db`
  split_ifs with hseqs
  · rfl
  change recomputePrefix P db.prefixLeaves >>= _ = _
  cases recomputePrefix P db.prefixLeaves with
  | error e => rfl
  | ok recomputed =>
    change reconcile P none (boundaryRows recomputed.1) recomputed.2 _ =
      (reconcile P none (boundaryRows recomputed.1) recomputed.2 db).map _
    rw [reconcile, reconcile]
    dsimp only
    split_ifs
    · rfl
    · rfl
    · change frontierMatches P db recomputed.2 >>= _ = _
      cases frontierMatches P db recomputed.2 with
      | error e => rfl
      | ok agrees =>
        simp only [bind, Except.bind]
        split_ifs <;> rfl

theorem respects_fill : (starting P).Respects (DbFile.onRows (ensureBoundaries P none))
    (DbFile.onRows (ensureBoundaries P none)) := by
  intro f _ f' hagrees hf
  obtain ⟨m, t, hm, hc, ht⟩ := hagrees
  obtain ⟨db, hdb, rfl⟩ := onRows_eq_ok.1 hf
  obtain ⟨b, r, rfl⟩ := ensureBoundaries_frame hdb
  exact ⟨_, onRows_eq_ok.2 ⟨_, by rw [ensureBoundaries_replace, hdb]; rfl, rfl⟩,
    .intro m t hm hc ht⟩

theorem verifyFile_eq : verifyFile P =
    (Durable.checked (requireSoundFile P) >=> DbFile.onRows (ensureBoundaries P none)) := by
  rw [verifyFile, Durable.onlyIf_ne_ok]

theorem verifyFile_eq_ok {f f' : DbFile} : verifyFile P f = .ok f' ↔
    fileErrors P f = .ok [] ∧ f.onRows (ensureBoundaries P none) = .ok f' := by
  rw [verifyFile_eq, Durable.checked_kleisli_eq_ok, requireSoundFile_eq_ok]

theorem respects_verifyFile : (starting P).Respects (verifyFile P) (verifyFile P) := by
  intro f g f' hagrees hf
  obtain ⟨hsound, hfill⟩ := verifyFile_eq_ok.1 hf
  obtain ⟨g', hg', hagrees'⟩ := respects_fill f g f' hagrees hfill
  exact ⟨g', verifyFile_eq_ok.2 ⟨hagrees.fileErrors hsound, hg'⟩, hagrees'⟩

/-- The verification is killed on the file it checks. -/
theorem triple_verifyProgram {f f' : DbFile} {K : DbFile → Prop} (hK : K f)
    (h : verifyFile P f = .ok f') :
    Durable.Triple (· = f) (verifyProgram P) K (fun _ => (· = f')) K := by
  obtain ⟨-, hfill⟩ := verifyFile_eq_ok.1 h
  refine Durable.triple_bind (Durable.triple_check (fun _ hk => hk) fun _ hk => hk ▸ hK) fun _ =>
    Durable.triple_query hK fun changed hchanged => ?_
  obtain rfl := Except.ok.inj hchanged
  by_cases hsame : f.onRows (ensureBoundaries P none) = .ok f
  · rw [if_neg (by simpa using hsame)]
    obtain rfl := Except.ok.inj (hsame.symm.trans hfill)
    exact Durable.triple_pure (Q := fun _ => (· = f)) ()
  · rw [if_pos (decide_eq_true hsame)]
    exact Durable.triple_commit_of_ok hK hK hfill

theorem journaled_of_existed {f : DbFile} (h : f.db.existed = true) : f.journaled = f := by
  obtain ⟨schema, ⟨_, _, _, _, _, _, _, _, _, _⟩, legacy⟩ := f
  obtain rfl := h
  rfl

theorem startFile_existing {env : StartEnv} {f : DbFile} {version : Nat}
    (hexisted : f.db.existed = true) (hversion : f.db.userVersion = version) :
    startFile P env f = (existingFile P env version >=> verifyFile P) f := by
  change schemaFile P env f >>= _ = existingFile P env version f >>= _
  rw [schemaFile, if_pos hexisted, hversion, journaled_of_existed hexisted]

/-- A start of a file of the current version verifies it. -/
theorem startFile_current {env : StartEnv} {f : DbFile} (hexisted : f.db.existed = true)
    (hversion : f.db.userVersion = 4) (hschema : requireCurrentSchema f = .ok ()) :
    startFile P env f = verifyFile P f := by
  rw [startFile_existing hexisted hversion]
  exact Durable.kleisli_of_ok (Durable.checked_eq_ok.2 ⟨hschema, rfl⟩)

/-- A start of a file without a version creates what is missing. -/
theorem startFile_begun {env : StartEnv} {f : DbFile} (hf : Begun f)
    (htable : f.schema.hasTable "idempotency" = true) :
    startFile P env f = (createFile P env >=> verifyFile P) f := by
  rw [startFile_existing hf.existed hf.version]
  change (Durable.checked requireLegacySchema >=> createFile P env) f >>= _ =
    createFile P env f >>= _
  rw [Durable.kleisli_of_ok (Durable.checked_eq_ok.2 ⟨hf.requireLegacySchema htable, rfl⟩)]

theorem existingFile_eq (env env' : StartEnv) {version : Nat} (h : version ≠ 0) :
    existingFile P env version = existingFile P env' version := by
  unfold existingFile
  split
  · exact absurd rfl h
  all_goals rfl

/-- A file that a start leaves as it is. -/
structure Settled (P : Platform) (f : DbFile) : Prop where
  existed : f.db.existed = true
  version : f.db.userVersion = 4
  schema : requireCurrentSchema f = .ok ()
  sound : fileErrors P f = .ok []
  filled : f.onRows (ensureBoundaries P none) = .ok f

namespace Settled

/-- What the verification of a file of the current version leaves. -/
theorem of_verify {f f' : DbFile} (hexisted : f.db.existed = true) (hversion : f.db.userVersion = 4)
    (hschema : requireCurrentSchema f = .ok ()) (h : verifyFile P f = .ok f')
    (hn : (f.db.log.rows.length : Int) ≤ maxInteger) : Settled P f' := by
  obtain ⟨hsound, hfill⟩ := verifyFile_eq_ok.1 h
  obtain ⟨db, hdb, rfl⟩ := onRows_eq_ok.1 hfill
  obtain ⟨⟨bodies, hlog⟩, -⟩ := walk_eq_nil.1 (fileErrors_eq_nil.1 hsound).1
  obtain ⟨hinv, b, r, rfl⟩ := ensureBoundaries_invariant hlog hn hdb
  exact ⟨hexisted, hversion, hschema, fileErrors_eq_nil.2 (fileErrors_eq_nil.1 hsound),
    onRows_eq_ok.2 ⟨_, hinv.ensureBoundaries none, rfl⟩⟩

theorem of_agrees {f g : DbFile} (h : Settled P f) (hagrees : AgreesFile f g) : Settled P g := by
  have hsound := hagrees.fileErrors h.sound
  obtain ⟨-, -, -, -, hmetadata, -⟩ := fileErrors_eq_nil.1 hsound
  have hversion := (metadataErrors_eq_nil.1 hmetadata).2
  obtain ⟨m, t, hm, hc, ht⟩ := hagrees
  obtain ⟨hexisted, hversion', hschema, -, hfilled⟩ := h
  refine ⟨hexisted, hversion', ?_, hsound, ?_⟩
  · rw [requireCurrentSchema] at hschema ⊢
    simp only [seq_eq_ok] at hschema ⊢
    obtain ⟨h₁, h₂, h₃, h₄, -⟩ := hschema
    exact ⟨h₁, h₂, h₃, h₄, require_eq_ok.2 hversion⟩
  · obtain ⟨db, hdb, hf⟩ := onRows_eq_ok.1 hfilled
    obtain rfl : db = f.db := (congrArg DbFile.db hf).symm
    exact onRows_eq_ok.2 ⟨_, by rw [ensureBoundaries_replace, hdb]; rfl, rfl⟩

/-- The head of a settled file is read. -/
theorem storeHead {f : DbFile} (h : Settled P f) (hn : (f.db.log.rows.length : Int) ≤ maxInteger) :
    ∃ head, SkillRegistry.storeHead f.db = .ok head := by
  obtain ⟨hwalk, -, -, -, hmetadata, -⟩ := fileErrors_eq_nil.1 h.sound
  obtain ⟨⟨created, hcreated, -⟩, -⟩ := metadataErrors_eq_nil.1 hmetadata
  obtain ⟨⟨bodies, hlog⟩, -⟩ := walk_eq_nil.1 hwalk
  obtain ⟨db, hdb, hf⟩ := onRows_eq_ok.1 h.filled
  obtain rfl : db = f.db := (congrArg DbFile.db hf).symm
  obtain ⟨hinv, -⟩ := ensureBoundaries_invariant hlog hn hdb
  rw [SkillRegistry.storeHead, hinv.snapshotBoundary_none hcreated]
  exact ⟨_, rfl⟩

end Settled

/-- Starts from the time `t` on lead from `g` to files that agree with `f`. -/
def LeadsTo (P : Platform) (t : Int) (f g : DbFile) : Prop :=
  ∀ env : StartEnv, t ≤ env.now → ∃ g', startFile P env g = .ok g' ∧ AgreesFile f g'

/-- The file exists, and where it has no version the indexes of its log are its own. -/
structure Startable (f : DbFile) : Prop where
  existed : f.db.existed = true
  indexes : f.db.userVersion = 0 → ∀ name ∈ logIndexes, ∀ index,
    f.schema.indexes.lookup name = some index → index.table = "log"

/-- A file that was begun, but has no table of the submissions. -/
def Stranded (f : DbFile) : Prop :=
  f.db.existed = true ∧ f.db.userVersion = 0 ∧ f.schema.hasTable "idempotency" = false

theorem Begun.startable {f : DbFile} (h : Begun f) : Startable f :=
  ⟨h.existed, fun _ => h.indexes⟩

/-- What a start may leave that was going to `f'`. -/
def Left (P : Platform) (t : Int) (f' g : DbFile) : Prop := Startable g ∧ LeadsTo P t f' g

theorem left_current {t : Int} {f f' : DbFile} (hexisted : f.db.existed = true)
    (hversion : f.db.userVersion = 4) (hschema : requireCurrentSchema f = .ok ())
    (h : verifyFile P f = .ok f') : Left P t f' f := by
  refine ⟨⟨hexisted, fun h0 => ?_⟩, fun env _ =>
    ⟨f', (startFile_current hexisted hversion hschema).trans h, .refl f'⟩⟩
  rw [hversion] at h0
  cases h0

/-- A creation that is interrupted is led on, once the file has a table of the submissions. -/
theorem triple_createProgram {env : StartEnv} {f f₁ f' : DbFile} (hf : Begun f)
    (hcreate : createFile P env f = .ok f₁) (hverify : verifyFile P f₁ = .ok f') :
    Durable.Triple (· = f) (createProgram P env)
      (fun k => f.schema.hasTable "idempotency" = false ∧ Stranded k ∨ Left P env.now f' k)
      (fun _ => (· = f₁))
      (fun k => f.schema.hasTable "idempotency" = false ∧ Stranded k ∨ Left P env.now f' k) := by
  -- one run of the program is compared with every later start at once
  have hall (env' : { e : StartEnv // env.now ≤ e.now }) :=
    (resumes_createProgram (P := P) env'.2).killed f f₁ hf trivial hcreate
  have : Nonempty { e : StartEnv // env.now ≤ e.now } := ⟨⟨env, le_rfl⟩⟩
  have hleft (k : DbFile) (hk : ∀ env' : { e : StartEnv // env.now ≤ e.now },
      (starting P).Later f k ∧ (starting P).Leads (createFile P env'.1) f₁ k) :
      f.schema.hasTable "idempotency" = false ∧ Stranded k ∨ Left P env.now f' k := by
    have hlater : LaterFile P f k := (hk ⟨env, le_rfl⟩).1
    have hbegun := hlater.begun hf
    -- the next start recognises the file by this table
    cases htable : k.schema.hasTable "idempotency" with
    | false =>
      refine .inl ⟨Bool.eq_false_of_not_eq_true fun h => ?_, hbegun.existed, hbegun.version, htable⟩
      exact Bool.false_ne_true (htable.symm.trans (hlater.tables _ (by decide) h))
    | true =>
      refine .inr ⟨hbegun.startable, fun env' hnow => ?_⟩
      obtain ⟨-, g₁, hg₁, hagrees₁⟩ := hk ⟨env', hnow⟩
      obtain ⟨g', hg', hagrees⟩ := respects_verifyFile f₁ g₁ f' hagrees₁ hverify
      exact ⟨g', by rw [startFile_begun hbegun htable, Durable.kleisli_of_ok hg₁, hg'], hagrees⟩
  exact (Durable.triple_forall hall).mono (fun _ h => h) hleft (fun _ _ h => h) hleft

/-- What the creation makes of a file that was begun. -/
theorem exists_of_createFile {env : StartEnv} {f f₁ : DbFile} (hf : Begun f)
    (h : createFile P env f = .ok f₁) :
    ∃ f₀, LaterFile P f f₀ ∧ f₁ = { f₀ with db := migrated 4 schemaVersion f₀.db } := by
  obtain ⟨D, hD, hprepare⟩ := redo_prepare (P := P) env env
  have hidempotency := redo_idempotency (P := P) (le_refl env.now)
  obtain ⟨g, hg, h⟩ := Durable.kleisli_eq_ok h
  obtain ⟨f₀, hf₀, h⟩ := Durable.kleisli_eq_ok h
  have hlater : LaterFile P f g := hprepare.later f g hf trivial hg
  have hrecords := hD g (hprepare.done f g hf trivial hg)
  exact ⟨f₀, hlater.trans (hidempotency.later g f₀ (hlater.begun hf) hrecords hf₀),
    (markFile_eq_ok.1 h).1⟩

/-- The verification changes neither the schema nor the log. -/
theorem verifyFile_frame {f f' : DbFile} (h : verifyFile P f = .ok f') :
    f'.db.existed = f.db.existed ∧ f'.db.userVersion = f.db.userVersion ∧
      f'.db.log = f.db.log ∧
      (requireCurrentSchema f' = .ok () ↔ requireCurrentSchema f = .ok ()) := by
  obtain ⟨-, hfill⟩ := verifyFile_eq_ok.1 h
  obtain ⟨db, hdb, rfl⟩ := onRows_eq_ok.1 hfill
  obtain ⟨b, r, rfl⟩ := ensureBoundaries_frame hdb
  exact ⟨rfl, rfl, rfl, Iff.rfl⟩

/-- A start, killed or failing in one of its parts. -/
theorem triple_startProgram {env : StartEnv} {f f₁ f' : DbFile} {K : DbFile → Prop} (hK : K f)
    (hK₁ : K f₁) (hbody : Durable.Triple (· = f.journaled)
      (if f.db.existed then existingProgram P env f.db.userVersion else createProgram P env) K
      (fun _ => (· = f₁)) K) (hverify : verifyFile P f₁ = .ok f') :
    Durable.Triple (· = f) (startProgram P env) K (fun _ => (· = f')) K := by
  refine Durable.triple_bind (Durable.triple_query hK fun existed hexisted => ?_) fun _ =>
    triple_verifyProgram hK₁ hverify
  obtain rfl := Except.ok.inj hexisted
  refine Durable.triple_bind (Q := fun _ => (· = f.journaled)) (Durable.triple_act
    (fun _ hk => hk ▸ hK) (fun _ hk => hk ▸ rfl) fun _ hk => hk ▸ hK) fun _ => ?_
  cases hexisted : f.db.existed with
  | false =>
    rw [hexisted] at hbody
    exact hbody
  | true =>
    rw [hexisted] at hbody
    have hKj : K f.journaled := (journaled_of_existed hexisted).symm ▸ hK
    refine Durable.triple_query hKj fun version hversion => ?_
    obtain rfl := Except.ok.inj hversion
    exact hbody

/-- The file that was journaled, and nothing else. -/
def DbFile.blank : DbFile := DbFile.new.journaled

theorem begun_blank : Begun .blank :=
  ⟨rfl, rfl, fun _ => rfl, fun h => (by cases h), fun h => (by cases h), fun h => (by cases h),
    fun h => (by cases h), fun _ _ _ h => (by cases h)⟩

/-- A start of a file that has a version reads no clock that matters. -/
theorem left_versioned {env : StartEnv} {t : Int} {f f' : DbFile} (hexisted : f.db.existed = true)
    (hversion : f.db.userVersion ≠ 0) (h : startFile P env f = .ok f') : Left P t f' f := by
  refine ⟨⟨hexisted, fun h0 => absurd h0 hversion⟩, fun env' _ => ⟨f', ?_, .refl f'⟩⟩
  rwa [startFile_existing hexisted rfl, existingFile_eq env' env hversion,
    ← startFile_existing hexisted rfl]

theorem createTable_frame {b : Bool} {name : String} {table : TableDef} {f f' : DbFile}
    (hname : name ≠ "log") (h : createTable b name table f = .ok f') :
    f'.db.existed = f.db.existed ∧ f'.db.log = f.db.log := by
  rcases createTable_eq_ok h with ⟨-, -, rfl⟩ | ⟨-, rfl⟩
  · exact ⟨rfl, rfl⟩
  · obtain ⟨hexisted, -, hlog, -⟩ := Db.cleared_frame f.db name
    exact ⟨hexisted, hlog hname⟩

theorem migrateV2ToV3_frame {f f' : DbFile} (h : migrateV2ToV3 f = .ok f') :
    f'.db.existed = f.db.existed ∧ f'.db.userVersion = 3 ∧ f'.db.log = f.db.log := by
  obtain ⟨g, hg, h⟩ := Wire.Except.bind_eq_ok h
  obtain rfl := Except.ok.inj h
  obtain ⟨f₁, h₁, hg⟩ := Durable.kleisli_eq_ok hg
  obtain ⟨f₂, h₂, hg⟩ := Durable.kleisli_eq_ok hg
  obtain rfl := Except.ok.inj hg
  have hframe₁ := createTable_frame (by decide) h₁
  have hframe₂ := createTable_frame (by decide) h₂
  exact ⟨hframe₂.1.trans hframe₁.1, rfl, hframe₂.2.trans hframe₁.2⟩

theorem migrateV3ToV4_frame {f f' : DbFile} (h : migrateV3ToV4 f = .ok f') :
    f'.db.existed = f.db.existed ∧ f'.db.userVersion = 4 ∧ f'.db.log = f.db.log := by
  obtain ⟨g, hg, h⟩ := Wire.Except.bind_eq_ok h
  obtain rfl := Except.ok.inj h
  obtain ⟨f₁, h₁, hg⟩ := Durable.kleisli_eq_ok hg
  obtain rfl := Except.ok.inj hg
  have hframe := createTable_frame (by decide) h₁
  exact ⟨hframe.1, rfl, hframe.2⟩

/-- A transaction, after a check. -/
theorem triple_transaction {check : DbFile → Except PyErr Unit} {s : FileStatement} {f f₁ : DbFile}
    {K : DbFile → Prop} {y : StartProgram Unit} {Q : Unit → DbFile → Prop} (hK : K f)
    (hs : s f = .ok f₁) (hy : Durable.Triple (· = f₁) y K Q K) :
    Durable.Triple (· = f) (do checkFile check; Durable.commit s; y) K Q K := by
  exact Durable.triple_bind (Q := fun _ => (· = f)) (Durable.triple_check (fun _ hk => hk)
    fun _ hk => hk ▸ hK) fun _ => Durable.triple_bind (Durable.triple_commit_of_ok hK hK hs)
    fun _ => hy

/-- The migration of a version 3 file. -/
theorem triple_upgradeV3 {t : Int} {f f₁ f' : DbFile} (hexisted : f.db.existed = true)
    (hversion : f.db.userVersion = 3) (h₁ : upgradeV3File f = .ok f₁)
    (hverify : verifyFile P f₁ = .ok f') (env : StartEnv) :
    (f₁.db.existed = true ∧ f₁.db.userVersion = 4 ∧ f₁.db.log = f.db.log) ∧ Left P t f' f ∧
      Durable.Triple (· = f) upgradeV3 (Left P t f') (fun _ => (· = f₁)) (Left P t f') := by
  have hstart : startFile P env f = .ok f' := by
    rw [startFile_existing hexisted hversion]
    exact (Durable.kleisli_of_ok h₁).trans hverify
  have hleft : Left P t f' f :=
    left_versioned hexisted (by rw [hversion]; exact Nat.succ_ne_zero _) hstart
  obtain ⟨m, hm, hm₁⟩ := Durable.kleisli_eq_ok (Durable.checked_kleisli_eq_ok.1 h₁).2
  obtain ⟨hschema, rfl⟩ := Durable.checked_eq_ok.1 hm₁
  obtain ⟨hexisted', hversion', hlog⟩ := migrateV3ToV4_frame hm
  rw [hexisted] at hexisted'
  refine ⟨⟨hexisted', hversion', hlog⟩, hleft, triple_transaction hleft hm ?_⟩
  have hleft' : Left P t f' f₁ := left_current hexisted' hversion' hschema hverify
  exact Durable.triple_check (fun _ hk => hk) fun _ hk => hk ▸ hleft'

/-- What a start leaves of a file that has a version. -/
theorem triple_existingProgram {env : StartEnv} {version : Nat} {f f₁ f' : DbFile}
    (hstart : Startable f) (hversion : f.db.userVersion = version)
    (h₁ : existingFile P env version f = .ok f₁) (hverify : verifyFile P f₁ = .ok f')
    (hnext : requireCurrentSchema f₁ = .ok ()) :
    (f₁.db.existed = true ∧ f₁.db.userVersion = 4 ∧ f₁.db.log = f.db.log) ∧
      Left P env.now f' f ∧ Durable.Triple (· = f) (existingProgram P env version)
        (Left P env.now f') (fun _ => (· = f₁)) (Left P env.now f') := by
  have hexisted := hstart.existed
  unfold existingFile at h₁
  unfold existingProgram
  split at h₁
  · -- no version: the file has its table of the submissions, so that it is not stranded
    obtain ⟨hlegacy, h₁⟩ := Durable.checked_kleisli_eq_ok.1 h₁
    have hbegun : Begun f := begun_of_legacy hexisted hversion hlegacy (hstart.indexes hversion)
    have htable : f.schema.hasTable "idempotency" = true :=
      (requireLegacySchema_eq_ok.1 hlegacy).1 _ List.mem_cons_self
    have hlog : f.schema.hasTable "log" = true :=
      (requireLegacySchema_eq_ok.1 hlegacy).1 _ (by decide)
    obtain ⟨f₀, hlater, rfl⟩ := exists_of_createFile hbegun h₁
    have hleft : Left P env.now f' f := by
      refine ⟨hbegun.startable, fun env' hnow => ?_⟩
      obtain ⟨g₁, hg₁, hagrees₁⟩ := (resumes_createProgram hnow).again f f _ (.refl f) h₁
      obtain ⟨g', hg', hagrees⟩ := respects_verifyFile _ g₁ f' hagrees₁ hverify
      exact ⟨g', by rw [startFile_begun hbegun htable, Durable.kleisli_of_ok hg₁, hg'], hagrees⟩
    have hled (k : DbFile)
        (hk : f.schema.hasTable "idempotency" = false ∧ Stranded k ∨ Left P env.now f' k) :
        Left P env.now f' k :=
      hk.elim (fun h => absurd (h.1.symm.trans htable) Bool.false_ne_true) id
    refine ⟨⟨(hlater.begun hbegun).existed, rfl, ?_⟩, hleft, Durable.triple_bind
      (Q := fun _ => (· = f)) (Durable.triple_check (fun _ hk => hk) fun _ hk => hk ▸ hleft)
      fun _ => (triple_createProgram hbegun h₁ hverify).mono (fun _ h => h) hled (fun _ _ h => h)
        hled⟩
    rcases hlater.log with hsame | ⟨habsent, -⟩
    · exact hsame
    · exact absurd (habsent.symm.trans hlog) Bool.false_ne_true
  · -- the current version is checked, and nothing is written
    obtain ⟨hschema, rfl⟩ := Durable.checked_eq_ok.1 h₁
    have hleft : Left P env.now f' f₁ := left_current hexisted hversion hschema hverify
    exact ⟨⟨hexisted, hversion, rfl⟩, hleft,
      Durable.triple_check (fun _ hk => hk) fun _ hk => hk ▸ hleft⟩
  · -- version 3: one transaction
    exact triple_upgradeV3 hexisted hversion h₁ hverify env
  · -- version 2: killed between its two transactions, the file is one of version 3
    have hstart' : startFile P env f = .ok f' := by
      rw [startFile_existing hexisted hversion]
      exact (Durable.kleisli_of_ok h₁).trans hverify
    have hleft : Left P env.now f' f :=
      left_versioned hexisted (by rw [hversion]; exact Nat.succ_ne_zero _) hstart'
    obtain ⟨m, hm, hm₁⟩ := Durable.kleisli_eq_ok (Durable.checked_kleisli_eq_ok.1 h₁).2
    obtain ⟨hexisted', hversion', hlog'⟩ := migrateV2ToV3_frame hm
    obtain ⟨⟨hexisted₁, hversion₁, hlog₁⟩, -, htriple⟩ :=
      triple_upgradeV3 (t := env.now) (hexisted'.trans hexisted) hversion' hm₁ hverify env
    exact ⟨⟨hexisted₁, hversion₁, hlog₁.trans hlog'⟩, hleft, triple_transaction hleft hm htriple⟩
  · -- any other version is refused
    obtain ⟨habsurd, -⟩ := Durable.checked_eq_ok.1 h₁
    cases habsurd

end SkillRegistry
