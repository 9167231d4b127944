import SkillRegistry.Store.Caches

/-!
# Starting a store

Opening the database of a registry: the schema of a new file is created, that of an
older one migrated, and the whole is verified before the instance is ready. Every stage
commits on its own, so a start that fails leaves what the stages before it did.

* `openStages` are the stages of a file, and `openStore` runs them;
* `Kept` is what no stage changes (`openStore_kept`): the log is not touched;
* an instance is ready only on a verified database (`openStore_ready`).
-/

namespace SkillRegistry

open Wire

variable (P : Platform)

/-! ## Stages -/

/-- A stage of a start. -/
abbrev Stage := Db → Except PyErr Db

/-- The database with a value in its metadata. -/
def Db.putMetadata (db : Db) (key value : PyStr) : Db :=
  { db with metadata := db.metadata.put ⟨key, value⟩ }

/-- What happens to a start. -/
structure OpenEnv where
  verifyInterval : ℚ
  /-- The failure of each stage. -/
  fails : Nat → Option PyErr
  /-- `_utc_now()` at the creation of the service. -/
  createdAt : Timestamp
  /-- `_utc_now()` at the end of the start. -/
  verifiedAt : Timestamp
  /-- `time.monotonic()` at the end of the start. -/
  clock : ℚ

/-- A stage that writes: another connection must not have a transaction open. -/
def writing (locked : Bool) (f : Stage) : Stage := fun db =>
  if locked then .error (.operationalError "database is locked") else f db

/-- The schema, created where it does not exist. -/
def createSchema : Stage := fun db => .ok { db with existed := true }

/-- `_initialize_creation_metadata`. -/
def initializeCreationMetadata (utcNow : Timestamp) : Stage := fun db =>
  let created := match db.metadataValue (py "created_at") with
    | some created => created
    | none => (db.log.rows.head?.map (·.createdAt)).getD utcNow.text
  .ok (db.putMetadata (py "created_at") created)

/-- The sequence numbers of the import fingerprints in some rows. -/
def fingerprintSeqs : List LogRow → Except PyErr (List (PyStr × Int))
  | [] => .ok []
  | row :: rows => do
    let record ← match pyLoads P row.recordJson with
      | .error .jsonDecodeError => .error (.storeIntegrityError
          s!"cannot migrate imported records: log sequence {row.seq} is invalid")
      | x => x
    let fingerprint ← importFingerprint P record
    let rest ← fingerprintSeqs rows
    .ok (match fingerprint with
      | some f => (f, row.seq) :: rest
      | none => rest)

/-- An import without a sequence number gets the last one with its fingerprint. -/
def resolveImport (seqs : List (PyStr × Int)) (t : Table ImportedRow.fingerprint)
    (row : ImportedRow) : Table ImportedRow.fingerprint :=
  match seqs.reverse.lookup row.fingerprint with
  | some seq => t.put { row with seq := some seq }
  | none => t

/-- `_migrate_imported_records`. -/
def migrateImportedRecords : Stage := fun db => do
  let unresolved := db.imported.rows.filter fun row => row.seq = none
  if unresolved = [] then return db
  let seqs ← fingerprintSeqs P db.log.rows
  return { db with imported := unresolved.foldl (resolveImport seqs) db.imported }

/-- The errors of a database end a start. -/
def requireSound : Stage := fun db => do
  match ← integrityErrors P db with
  | [] => .ok db
  | errors => .error (.storeIntegrityError ("; ".intercalate errors))

/-- The database marked with a version, in the file and in the metadata. -/
def migrated (version : Nat) (marker : PyStr) (db : Db) : Db :=
  { db.putMetadata (py "schema_version") marker with userVersion := version }

/-- `_mark_current_schema`. -/
def markCurrentSchema : Stage := fun db =>
  requireSound P (migrated 4 schemaVersion db)

/-- The check of the version in the metadata, which ends `_require_current_schema` and its
    siblings; the columns are those of the tables. -/
def requireMarker (marker : Option PyStr) (message : String) : Stage := fun db =>
  if db.metadataValue (py "schema_version") = marker then .ok db
  else .error (.storeIntegrityError message)

/-- The message of a version that disagrees with the file. -/
def markersDisagree : String := "database schema version markers disagree"

/-- `_migrate_v2_to_v3` and `_migrate_v3_to_v4`: the new tables are empty. -/
def migrateTo (version : Nat) (marker : PyStr) : Stage := fun db =>
  .ok (migrated version marker db)

/-- The stages that create the schema of a file. -/
def creationStages (env : OpenEnv) (locked : Bool) : List Stage :=
  [writing locked createSchema, writing locked (initializeCreationMetadata env.createdAt),
    writing locked (migrateImportedRecords P), writing locked (markCurrentSchema P)]

/-- The stages that bring a file to the current schema. -/
def schemaStages (env : OpenEnv) (locked : Bool) (db : Db) : List Stage :=
  if ¬db.existed then creationStages P env locked
  else match db.userVersion with
  | 0 => requireMarker none
      "database schema version markers disagree; restore a verified backup" ::
        creationStages P env locked
  | 4 => [requireMarker (some schemaVersion) markersDisagree]
  | 3 => [requireMarker (some (py "3")) markersDisagree, writing locked (migrateTo 4 schemaVersion),
      requireMarker (some schemaVersion) markersDisagree]
  | 2 => [requireMarker (some (py "2")) markersDisagree, writing locked (migrateTo 3 (py "3")),
      requireMarker (some (py "3")) markersDisagree, writing locked (migrateTo 4 schemaVersion),
      requireMarker (some schemaVersion) markersDisagree]
  | n => [fun _ => .error (.storeIntegrityError s!"unsupported database schema version {n}")]

/-- The stages of a start. -/
def openStages (env : OpenEnv) (locked : Bool) (db : Db) : List Stage :=
  schemaStages P env locked db ++ [requireSound P, ensureBoundaries P
    (if locked then some (.operationalError "database is locked") else none)]

/-- The stages, one after another: the file they leave, and the exception that ended them. -/
def runStages (fails : Nat → Option PyErr) : Nat → List Stage → Db → Db × Option PyErr
  | _, [], db => (db, none)
  | k, stage :: stages, db =>
    match fails k, stage db with
    | some e, _ | none, .error e => (db, some e)
    | none, .ok db => runStages fails (k + 1) stages db

/-! ## Starts -/

/-- What a start raises in place of an exception of SQLite. -/
def startError : PyErr → PyErr
  | .operationalError m | .integrityError m =>
    .storeIntegrityError ("SQLite integrity verification failed: " ++ m)
  | .interrupted => .storeIntegrityError "SQLite integrity verification failed: interrupted"
  | e => e

/-- The instance after a successful start. -/
def readyStore (env : OpenEnv) (head : Int × PyStr) : Store where
  verifyInterval := env.verifyInterval
  healthReady := true
  verifiedHead := head.2
  verifiedLogSize := head.1
  verifiedAt := env.verifiedAt.text
  healthError := none
  healthCode := "not_ready"
  lastRefresh := env.clock
  integrityFailed := false
  failed_not_ready := nofun

/-- `Store.__init__`: the file it leaves, and the instance. -/
def openStore (env : OpenEnv) (locked : Bool) (db : Db) : Db × Except PyErr Store :=
  if env.verifyInterval ≤ 0 then
    (db, .error (.valueError "health_verify_interval must be a positive finite number of seconds"))
  else
    match runStages env.fails 0 (openStages P env locked db) db with
    | (db, some e) => (db, .error (startError e))
    | (db, none) => (db, (storeHead db).map (readyStore env))

/-! ## What a start keeps -/

/-- What no start changes. -/
structure Kept (db db' : Db) : Prop where
  log : db'.log = db.log
  idempotency : db'.idempotency = db.idempotency
  highWater : db'.highWater = db.highWater
  sequence : db'.logSequence = db.logSequence
  created : ∀ t, db.metadataValue (py "created_at") = some t →
    db'.metadataValue (py "created_at") = some t
  invariant : Invariant P db → Invariant P db'

variable {P}

theorem Kept.refl (db : Db) : Kept P db db := ⟨rfl, rfl, rfl, rfl, fun _ h => h, id⟩

theorem Kept.trans {a b c : Db} (h : Kept P a b) (h' : Kept P b c) : Kept P a c where
  log := h'.log.trans h.log
  idempotency := h'.idempotency.trans h.idempotency
  highWater := h'.highWater.trans h.highWater
  sequence := h'.sequence.trans h.sequence
  created t ht := h'.created t (h.created t ht)
  invariant hi := h'.invariant (h.invariant hi)

theorem metadataValue_putMetadata (db : Db) (key value k : PyStr) :
    (db.putMetadata key value).metadataValue k = if k = key then some value else db.metadataValue k := by
  rw [Db.metadataValue, Db.putMetadata, Table.find?_put]
  split_ifs <;> rfl

theorem kept_migrated (version : Nat) (marker : PyStr) (db : Db) :
    Kept P db (migrated version marker db) where
  log := rfl
  idempotency := rfl
  highWater := rfl
  sequence := rfl
  created t ht := by
    have hne : py "created_at" ≠ py "schema_version" := by decide
    exact (metadataValue_putMetadata db _ _ _).trans ((if_neg hne).trans ht)
  invariant hi := hi.congr rfl rfl rfl

/-- A stage keeps what no start changes. -/
def Stage.Keeps (P : Platform) (stage : Stage) : Prop := ∀ db db', stage db = .ok db' → Kept P db db'

theorem keeps_writing {locked : Bool} {f : Stage} (h : f.Keeps P) : (writing locked f).Keeps P := by
  intro db db' hr
  unfold writing at hr
  split_ifs at hr
  exact h db db' hr

theorem keeps_createSchema : createSchema.Keeps P := fun db db' hr => by
  obtain rfl := Except.ok.inj hr
  exact ⟨rfl, rfl, rfl, rfl, fun _ h => h, fun h => h.congr rfl rfl rfl⟩

theorem keeps_initializeCreationMetadata (utcNow : Timestamp) :
    (initializeCreationMetadata utcNow).Keeps P := fun db db' hr => by
  obtain rfl := Except.ok.inj hr
  refine ⟨rfl, rfl, rfl, rfl, fun t ht => ?_, fun h => h.congr rfl rfl rfl⟩
  rw [metadataValue_putMetadata, if_pos rfl, ht]

theorem keeps_migrateImportedRecords : (migrateImportedRecords P).Keeps P := fun db db' hr => by
  unfold migrateImportedRecords at hr
  simp only at hr
  split_ifs at hr
  · obtain rfl := Except.ok.inj hr
    exact .refl db
  · obtain ⟨seqs, -, hr⟩ := Wire.Except.bind_eq_ok hr
    obtain rfl := Except.ok.inj hr
    exact ⟨rfl, rfl, rfl, rfl, fun _ h => h, fun h => h.congr rfl rfl rfl⟩

theorem requireSound_eq_ok {db db' : Db} (h : requireSound P db = .ok db') :
    db' = db ∧ Verified P db := by
  obtain ⟨errors, he, h⟩ := Wire.Except.bind_eq_ok h
  cases errors with
  | nil => exact ⟨(Except.ok.inj h).symm, integrityErrors_eq_nil.1 he⟩
  | cons e es => cases h

theorem keeps_requireSound : (requireSound P).Keeps P := fun db db' hr => by
  obtain rfl := (requireSound_eq_ok hr).1
  exact .refl db'

theorem keeps_markCurrentSchema : (markCurrentSchema P).Keeps P := fun db _ hr =>
  (requireSound_eq_ok hr).1 ▸ kept_migrated 4 schemaVersion db

theorem keeps_requireMarker (marker : Option PyStr) (message : String) :
    (requireMarker marker message).Keeps P := fun db db' hr => by
  unfold requireMarker at hr
  split_ifs at hr
  obtain rfl := Except.ok.inj hr
  exact .refl db

theorem keeps_migrateTo (version : Nat) (marker : PyStr) : (migrateTo version marker).Keeps P :=
  fun db _ hr => Except.ok.inj hr ▸ kept_migrated version marker db

theorem ensureBoundaries_frame {begins : Option PyErr} {db db' : Db}
    (h : ensureBoundaries P begins db = .ok db') :
    ∃ b f, db' = { db with boundaries := b, frontier := f } := by
  unfold ensureBoundaries at h
  split_ifs at h
  obtain ⟨recomputed, -, h⟩ := Wire.Except.bind_eq_ok h
  exact (reconcile_eq_ok h).2.1

theorem keeps_ensureBoundaries (begins : Option PyErr) :
    Stage.Keeps P (ensureBoundaries P begins) := fun db db' hr => by
  obtain ⟨b, f, rfl⟩ := ensureBoundaries_frame hr
  refine ⟨rfl, rfl, rfl, rfl, fun _ h => h, fun h => ?_⟩
  rw [h.ensureBoundaries begins] at hr
  exact Except.ok.inj hr ▸ h

theorem keeps_creationStages (env : OpenEnv) (locked : Bool) :
    ∀ stage ∈ creationStages P env locked, stage.Keeps P := by
  simp only [creationStages, List.forall_mem_cons]
  exact ⟨keeps_writing keeps_createSchema, keeps_writing (keeps_initializeCreationMetadata _),
    keeps_writing keeps_migrateImportedRecords, keeps_writing keeps_markCurrentSchema, nofun⟩

theorem keeps_schemaStages (env : OpenEnv) (locked : Bool) (db : Db) :
    ∀ stage ∈ schemaStages P env locked db, stage.Keeps P := by
  unfold schemaStages
  split
  · exact keeps_creationStages env locked
  · split
    · exact List.forall_mem_cons.2 ⟨keeps_requireMarker _ _, keeps_creationStages env locked⟩
    · exact List.forall_mem_cons.2 ⟨keeps_requireMarker _ _, nofun⟩
    · simp only [List.forall_mem_cons]
      exact ⟨keeps_requireMarker _ _, keeps_writing (keeps_migrateTo _ _), keeps_requireMarker _ _,
        nofun⟩
    · simp only [List.forall_mem_cons]
      exact ⟨keeps_requireMarker _ _, keeps_writing (keeps_migrateTo _ _), keeps_requireMarker _ _,
        keeps_writing (keeps_migrateTo _ _), keeps_requireMarker _ _, nofun⟩
    · exact List.forall_mem_cons.2 ⟨nofun, nofun⟩

theorem runStages_kept {fails : Nat → Option PyErr} {k : Nat} {stages : List Stage} {db : Db}
    (h : ∀ stage ∈ stages, stage.Keeps P) : Kept P db (runStages fails k stages db).1 := by
  induction stages generalizing k db with
  | nil => exact .refl db
  | cons stage stages ih =>
    obtain ⟨hstage, hstages⟩ := List.forall_mem_cons.1 h
    rw [runStages]
    split
    · exact .refl db
    · exact .refl db
    · rename_i db' _ hdb'
      exact (hstage db db' hdb').trans (ih hstages)

/-- Stages that end without an exception have all been run. -/
theorem runStages_append {fails : Nat → Option PyErr} {k : Nat} {stages stages' : List Stage}
    {db db' : Db} (h : runStages fails k (stages ++ stages') db = (db', none)) :
    ∃ db₁, runStages fails k stages db = (db₁, none) ∧
      runStages fails (k + stages.length) stages' db₁ = (db', none) := by
  induction stages generalizing k db with
  | nil => exact ⟨db, rfl, h⟩
  | cons stage stages ih =>
    rw [List.cons_append, runStages] at h
    rw [runStages]
    split at h
    · cases h
    · cases h
    · obtain ⟨db₂, h₁, h₂⟩ := ih h
      exact ⟨db₂, h₁, by rwa [List.length_cons, Nat.add_comm stages.length, ← Nat.add_assoc]⟩

/-- A start does not touch the log, nor what depends on it. -/
theorem openStore_kept (env : OpenEnv) (locked : Bool) (db : Db) :
    Kept P db (openStore P env locked db).1 := by
  have hstages : ∀ stage ∈ openStages P env locked db, stage.Keeps P := by
    intro stage hs
    rcases List.mem_append.1 hs with hs | hs
    · exact keeps_schemaStages env locked db stage hs
    · rcases List.mem_pair.1 hs with rfl | rfl
      · exact keeps_requireSound
      · exact keeps_ensureBoundaries _
  have hrun : Kept P db (runStages env.fails 0 (openStages P env locked db) db).1 :=
    runStages_kept hstages
  unfold openStore
  split_ifs
  · exact .refl db
  · split <;> rename_i h <;> rw [h] at hrun <;> exact hrun

theorem Verified.congr {db db' : Db} (h : Verified P db) (hl : db'.log = db.log)
    (hm : db'.metadata = db.metadata) (hs : db'.idempotency = db.idempotency)
    (hi : db'.imported = db.imported) (hw : db'.highWater = db.highWater) : Verified P db' := by
  have hc (row : IdempotencyRow) (v : Json) :
      submissionConsistent P db' row v = submissionConsistent P db row v := by
    simp only [submissionConsistent, hl]
  obtain ⟨h₁, h₂, h₃, h₄, h₅, h₆, h₇⟩ := h
  refine ⟨?_, ?_, hl ▸ h₃, hl ▸ h₄, ?_, ?_, hw ▸ h₇⟩
  · rwa [Db.metadataValue, hm]
  · rwa [Db.metadataValue, hm]
  · simp only [hs, hl, hc]
    exact h₅
  · rw [hi, hl]
    exact h₆

/-- A start that succeeds ends with the two checks of the log, and reads its head. -/
theorem openStore_ensured {env : OpenEnv} {locked : Bool} {db db' : Db} {s : Store}
    (h : openStore P env locked db = (db', .ok s)) :
    ∃ db₁, Verified P db₁ ∧ ensureBoundaries P
        (if locked then some (.operationalError "database is locked") else none) db₁ = .ok db' ∧
      ∃ head, storeHead db' = .ok head ∧ s = readyStore env head := by
  unfold openStore at h
  by_cases hi : env.verifyInterval ≤ 0
  · rw [if_pos hi] at h
    cases h
  rw [if_neg hi] at h
  split at h
  · cases h
  · rename_i db₁ hrun
    obtain ⟨rfl, hhead⟩ := Prod.mk.inj h
    obtain ⟨head, hread, rfl⟩ := Wire.Except.map_eq_ok hhead
    -- the last two stages verify the log and bring the caches up to it
    obtain ⟨db₂, -, hlast⟩ := runStages_append hrun
    rw [runStages] at hlast
    split at hlast
    · cases hlast
    · cases hlast
    · rename_i db₃ _ hsound
      obtain ⟨rfl, hverified⟩ := requireSound_eq_ok hsound
      rw [runStages] at hlast
      split at hlast
      · cases hlast
      · cases hlast
      · rename_i db₄ _ hensure
        obtain rfl := (Prod.mk.inj hlast).1
        exact ⟨_, hverified, hensure, head, hread, rfl⟩

/-- An instance is ready only on a verified database, whose head it has verified. -/
theorem openStore_ready {env : OpenEnv} {locked : Bool} {db db' : Db} {s : Store}
    (hn : (db.log.rows.length : Int) ≤ maxInteger) (h : openStore P env locked db = (db', .ok s)) :
    Verified P db' ∧ Invariant P db' ∧
      ∃ head, storeHead db' = .ok head ∧ s = readyStore env head := by
  have hkept := openStore_kept (P := P) env locked db
  rw [h] at hkept
  obtain ⟨db₁, hverified, hensure, hhead⟩ := openStore_ensured h
  obtain ⟨bodies, hlog⟩ := hverified.log
  obtain ⟨b, f, rfl⟩ := ensureBoundaries_frame hensure
  have hl : db₁.log = db.log := hkept.log
  obtain ⟨hinv, -⟩ := ensureBoundaries_invariant hlog (hl ▸ hn) hensure
  exact ⟨hverified.congr rfl rfl rfl rfl rfl, hinv, hhead⟩

/-! ## A registry to evaluate on -/

/-- A time. -/
def sampleTime : Timestamp := ⟨py "2024-01-01T00:00:00Z", by decide +kernel⟩

/-- A start in which nothing fails. -/
def sampleStart : OpenEnv := ⟨60, fun _ => none, sampleTime, sampleTime, 0⟩

/-- A record. -/
def sampleRecord : Record where
  members :=
    [(py "commit", .str (py "0000000000000000000000000000000000000000")),
      (py "content_sha256", .str (py "sha256:00")), (py "name", .str (py "tool")),
      (py "source_identity", .str (py "host/tool")), (py "status", .str (py "audited"))]
  sorted := Json.every_obj.2 ⟨(by decide : Dict.Sorted _), by simp [Json.Every, Json.IsDict]⟩
  numeral := Json.every_obj.2 ⟨trivial, by simp [Json.Every, Json.IsNumeral]⟩

/-- The connection of the first instance on a new file. -/
def sampleConn : Conn := ⟨(openStore Platform.sample sampleStart false .absent).1, none, false⟩

/-- The first instance on a new file. -/
def sampleStore : Store := readyStore sampleStart (0, genesis)

set_option maxRecDepth 10000 in
/-- The first start of a registry succeeds. -/
theorem openStore_sample : openStore .sample sampleStart false .absent =
    (sampleConn.disk, .ok sampleStore) := by decide +kernel

theorem invariant_sample : Invariant .sample sampleConn.disk :=
  (openStore_kept sampleStart false .absent).invariant (invariant_of_empty rfl rfl rfl)

/-- A call keeps the invariant, however it ends. -/
theorem Invariant.perform {c : Conn} (h : Invariant P c.disk) (env : Env) (s : Store) (call : Call) :
    Invariant P (s.perform P env c call).conn.disk := by
  have hdone := perform_performed (P := P) env c s call
  generalize s.perform P env c call = o at hdone
  cases hdone with
  | refused => exact h
  | leftActive => exact h
  | done _ _ _ _ _ performs => exact performs.invariant h

/-- The first append of a registry. -/
def sampleAppend : Call := .append sampleRecord sampleTime.text

/-- The registry after its first append. -/
def sampleGrown : Db := (sampleStore.perform .sample (.calm 0) sampleConn sampleAppend).conn.disk

theorem invariant_sampleGrown : Invariant .sample sampleGrown :=
  invariant_sample.perform (.calm 0) sampleStore sampleAppend

end SkillRegistry
