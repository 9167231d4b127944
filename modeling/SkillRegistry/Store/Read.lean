import SkillRegistry.Store.Database
import SkillRegistry.Structure.Latest

/-!
# Reading the store

What the store answers from the database its connection sees: committed boundaries,
and pages of the log and of the records.

* `snapshotBoundary` is `_snapshot_boundary_locked`, and `pageBoundary` resolves the
  boundary a page is evaluated at;
* `logPage`, `recordsPage` and `logEntries` read the rows up to a boundary; the last
  record of each key is taken as the window function of the query takes it;
* `jsonExtract` is SQLite's reading of `$.hash_version` in a record, which takes the
  first member of a name where `json.loads` takes the last.
-/

namespace SkillRegistry

open Wire Latest

variable (P : Platform)

/-! ## Boundaries -/

/-- A `SnapshotBoundary`. -/
structure SnapshotBoundary where
  version : Int
  logSize : Int
  head : PyStr
  merkleRoot : PyStr
  createdAt : PyStr
  deriving DecidableEq, Repr

/-- `_snapshot_boundary_locked`. -/
def snapshotBoundary (db : Db) (maxSeq : Option Int) : Except PyErr SnapshotBoundary :=
  let current := db.size
  let boundary := maxSeq.getD current
  if boundary < 0 ∨ boundary > current then
    .error (.valueError "snapshot boundary is unavailable")
  else if boundary = 0 then
    match db.metadataValue (py "created_at") with
    | none => .error (.storeIntegrityError "service creation metadata is missing")
    | some createdAt => .ok ⟨0, 0, genesis, genesis, createdAt⟩
  else
    match db.boundaries.find? boundary with
    | none =>
      .error (.storeIntegrityError "snapshot boundary cache is missing; restart to rebuild")
    | some cached =>
      match db.log.find? boundary with
      | none => .error (.storeIntegrityError "log head does not match the snapshot boundary")
      | some anchor =>
        if anchor.entryHash ≠ cached.head ∨ anchor.createdAt ≠ cached.createdAt then
          .error (.storeIntegrityError "log head does not match the snapshot boundary")
        else if (db.log.find? 1).isNone then
          .error (.storeIntegrityError "log sequence is not contiguous")
        else .ok ⟨boundary, boundary, cached.head, cached.merkleRoot, cached.createdAt⟩

/-- `head`. -/
def storeHead (db : Db) : Except PyErr (Int × PyStr) :=
  (snapshotBoundary db none).map fun b => (b.logSize, b.head)

/-- The exceptions `except (ValueError, StoreIntegrityError)` catches. -/
def PyErr.isUnavailable (e : PyErr) : Bool :=
  e.isValueError || match e with
    | .storeIntegrityError _ => true
    | _ => false

/-- `_page_boundary_locked`. -/
def pageBoundary (db : Db) (boundary : Option SnapshotBoundary) (maxSeq : Option Int) :
    Except PyErr SnapshotBoundary :=
  match boundary, maxSeq with
  | some _, some _ => .error (.valueError "page boundary and max_seq are mutually exclusive")
  | none, maxSeq => snapshotBoundary db maxSeq
  | some boundary, none =>
    match snapshotBoundary db (some boundary.logSize) with
    | .error e =>
      if e.isUnavailable then
        .error (.cursorBoundaryMismatch "cursor boundary is not available in this store")
      else .error e
    | .ok actual =>
      if actual ≠ boundary then
        .error (.cursorBoundaryMismatch "cursor boundary disagrees with the committed log prefix")
      else .ok actual

/-- `boundary_available`, and `checkpoint_matches`. -/
def boundaryAvailable (db : Db) (expected : SnapshotBoundary) : Except PyErr Bool :=
  match snapshotBoundary db (some expected.logSize) with
  | .error e => if e.isUnavailable then .ok false else .error e
  | .ok actual => .ok (actual = expected)

/-! ## The log -/

/-- A `LogEntry`. -/
structure LogEntry where
  seq : Int
  entryHash : PyStr
  prevHash : PyStr
  record : Dict
  deriving DecidableEq

/-- `_entry_from_row`. -/
def entryFromRow (row : LogRow) : Except PyErr LogEntry := do
  match ← pyLoads P row.recordJson with
  | .obj record => .ok ⟨row.seq, row.entryHash, row.prevHash, record⟩
  | _ => .error (.storeIntegrityError "stored record is not an object")

/-- The rows of `log` after `since`, up to `cap`. -/
def Db.logBetween (db : Db) (since cap : Int) : List LogRow :=
  db.log.rows.filter fun row => since < row.seq && row.seq ≤ cap

/-- `log_entries`. -/
def logEntries (db : Db) (since : Int) (maxSeq : Option Int) : Except PyErr (List LogEntry) := do
  let boundary ← snapshotBoundary db maxSeq
  bindInt [since, boundary.logSize]
  (db.logBetween since boundary.logSize).mapM (entryFromRow P)

/-- `log_page`. -/
def logPage (db : Db) (since : Int) (limit offset : Nat) (maxSeq : Option Int)
    (boundary : Option SnapshotBoundary) : Except PyErr (List LogEntry × Bool) := do
  let cap ← pageBoundary db boundary maxSeq
  bindInt [since, cap.logSize, limit + 1, offset]
  let rows := page limit offset (db.logBetween since cap.logSize)
  let entries ← rows.1.mapM (entryFromRow P)
  .ok (entries, rows.2)

/-! ## The records -/

/-- A value of SQLite, in the order of values: integers, reals (by their literal), and
    texts. -/
abbrev SqlValue := ℕ ×ₗ Int ×ₗ PyStr

/-- An integer. -/
def sqlInteger (n : Int) : SqlValue := toLex (0, toLex (n, []))

/-- A real. -/
def sqlReal (literal : PyStr) : SqlValue := toLex (1, toLex (0, literal))

/-- A text. -/
def sqlText (s : PyStr) : SqlValue := toLex (2, toLex (0, s))

/-- The hooks of SQLite's reader: an object keeps its pairs. -/
def sqliteHooks : Hooks PyErr where
  malformed := .operationalError "malformed JSON"
  int t := .ok (.int (intOf t))
  float t := .ok (.float t)
  constant t := .ok (.float t)
  pairs members := .ok (.obj members)
  nest _ := none

/-- `json_extract(record_json, '$.hash_version')`, `none` for `NULL`. -/
def jsonExtract (recordJson : PyStr) : Except PyErr (Option SqlValue) := do
  match ← loads sqliteHooks recordJson with
  | .obj members =>
    match members.lookup (py "hash_version") with
    | none | some .null => .ok none
    | some (.bool b) => .ok (some (sqlInteger (if b then 1 else 0)))
    | some (.int n) => .ok (some (sqlInteger n))
    | some (.float t) => .ok (some (sqlReal t))
    | some (.str s) => .ok (some (sqlText s))
    | some (.arr items) => .ok (some (sqlText (Json.arr items).dumps))
    | some (.obj members) => .ok (some (sqlText (Json.obj members).dumps))
  | _ => .ok none

/-- `COALESCE(json_extract(record_json, '$.hash_version'), 1)`. -/
def hashVersionColumn (recordJson : PyStr) : Except PyErr SqlValue :=
  (jsonExtract recordJson).map (·.getD (sqlInteger 1))

/-- The columns a record is served by: `name`, `source_identity`, `commit_hash`,
    `hash_version` and `content_sha256`. -/
abbrev RecordKey := PyStr ×ₗ PyStr ×ₗ PyStr ×ₗ SqlValue ×ₗ PyStr

/-- The key of a row, given its `hash_version`. -/
def LogRow.recordKey (row : LogRow) (hashVersion : SqlValue) : RecordKey :=
  toLex (row.name, toLex (row.sourceIdentity, toLex (row.commitHash,
    toLex (hashVersion, row.contentSha256))))

/-- A row with its key. -/
def keyedRow (row : LogRow) : Except PyErr (RecordKey × LogRow) :=
  (hashVersionColumn row.recordJson).map fun v => (row.recordKey v, row)

/-- The filters of a query of records. -/
structure RecordsQuery where
  sourceIdentity : PyStr
  commit : PyStr
  contentSha256 : PyStr
  hashVersion : Option Int
  deriving DecidableEq, Repr

namespace RecordsQuery

/-- The clauses of a query on the columns of a row. -/
def columns (q : RecordsQuery) (row : LogRow) : Bool :=
  (q.sourceIdentity = [] || (row.sourceIdentity = q.sourceIdentity && row.commitHash = q.commit)) &&
    (q.contentSha256 = [] || row.contentSha256 = q.contentSha256)

/-- The `hash_version` of a key. -/
def version (key : RecordKey) : SqlValue := (ofLex (ofLex (ofLex (ofLex key).2).2).2).1

/-- The clause of a query on the `hash_version`, when a content hash is given. -/
def versions (q : RecordsQuery) (key : RecordKey) : Bool :=
  q.contentSha256 = [] || version key = sqlInteger (q.hashVersion.getD 1)

end RecordsQuery

/-- The rows the query of `records_page` ranks first, up to `cap`, in their order: the
    clauses select rows, and the last row of each key has rank 1. -/
def rankedRows (db : Db) (q : RecordsQuery) (cap : Int) : Except PyErr (List (RecordKey × LogRow)) := do
  let rows ← (db.log.rows.filter fun row => row.seq ≤ cap && q.columns row).mapM keyedRow
  .ok (projection Prod.fst (rows.filter fun row => q.versions row.1))

/-- `records_page`. -/
def recordsPage (db : Db) (q : RecordsQuery) (limit offset : Nat) (maxSeq : Option Int)
    (boundary : Option SnapshotBoundary) : Except PyErr (List Json × Bool) :=
  if q.hashVersion ≠ none ∧
      ((q.hashVersion ≠ some 1 ∧ q.hashVersion ≠ some 2) ∨ q.contentSha256 = []) then
    .error (.valueError "hash_version requires content_sha256 and must be 1 or 2")
  else if ¬(q.sourceIdentity = [] ↔ q.commit = []) then
    .error (.valueError "source_identity and commit must appear together")
  else if q.sourceIdentity = [] ∧ q.contentSha256 = [] then .ok ([], false)
  else do
    let cap ← pageBoundary db boundary maxSeq
    bindText [q.sourceIdentity, q.commit, q.contentSha256]
    bindInt [cap.logSize, limit + 1, offset]
    let rows := page limit offset (← rankedRows db q cap.logSize)
    let records ← rows.1.mapM fun row => pyLoads P row.2.recordJson
    .ok (records, rows.2)

/-- `get_upstream_high_water`. -/
def getUpstreamHighWater (db : Db) (keyId : PyStr) : Except PyErr (Option UpstreamHighWater) := do
  bindText [keyId]
  .ok (db.highWater.find? keyId)

/-! ## Reading `$.hash_version` -/

theorem loads_sqlite_dumps {v : Json} (hv : v.Numeral) : loads sqliteHooks v.dumps = .ok v := by
  have hk : v.Every sqliteHooks.Keeps := hv.imp fun w _ => by
    cases w with
    | int n => exact congrArg (fun m => Except.ok (Json.int m)) (intOf_intText n)
    | float t => exact ite_self _
    | obj members => rfl
    | null | bool | str | arr => trivial
  rw [loads_dumps _ hv, interp_eq_self _ hk 0 fun _ _ => rfl]

/-- The `hash_version` that a record is keyed by, where none or `null` means `1`. -/
def versionColumn : Option Json → SqlValue
  | none | some .null => sqlInteger 1
  | some (.bool b) => sqlInteger (if b then 1 else 0)
  | some (.int n) => sqlInteger n
  | some (.float t) => sqlReal t
  | some (.str s) => sqlText s
  | some (.arr items) => sqlText (Json.arr items).dumps
  | some (.obj members) => sqlText (Json.obj members).dumps

/-- SQLite reads the `hash_version` of a record as it was written. -/
theorem hashVersionColumn_dumps {r : Dict} (hr : (Json.obj r).Numeral) :
    hashVersionColumn (Json.obj r).dumps = .ok (versionColumn (r.get? (py "hash_version"))) := by
  rw [hashVersionColumn, jsonExtract, loads_sqlite_dumps hr]
  cases hv : r.get? (py "hash_version") with
  | none =>
    have hl : List.lookup (py "hash_version") r = none := hv
    simp only [bind, Except.bind, hl]
    rfl
  | some v =>
    have hl : List.lookup (py "hash_version") r = some v := hv
    cases v <;> simp only [bind, Except.bind, hl] <;> rfl

end SkillRegistry
