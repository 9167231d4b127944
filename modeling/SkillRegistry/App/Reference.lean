import SkillRegistry.App.Answered
import SkillRegistry.Concurrent

/-!
# Reference answers

What the two endpoints that are read in pages answer at a boundary, all pages taken together.

* `LogRequest.reference` and `RecordsRequest.reference` are the answers, from the log and the
  boundary alone: the records of each key are ranked first, and the filters select afterwards;
* `Recorded`: the rows of a store hold the texts of the records they were written for, so that
  SQLite reads in them what the registry does;
* `LogRequest.reader_page` and `RecordsRequest.reader_page`: what is read at the boundary is a
  page of the answer.
-/

namespace SkillRegistry

open Wire Latest

variable (P : Platform)

/-! ## Answers -/

/-- The key of a row: its record is replaced by a later one with the same key. -/
def LogRow.key (row : LogRow) : RecordKey :=
  row.recordKey (versionColumn ((row.record P).get? (py "hash_version")))

/-- The key of an artifact: the columns a record is served by. -/
def artifactKey (record : Dict) : RecordKey :=
  toLex (strField record (py "name"), toLex (strField record (py "source_identity"),
    toLex (strField record (py "commit"), toLex (versionColumn (record.get? (py "hash_version")),
      strField record (py "content_sha256")))))

/-- The rows of a log up to a boundary. -/
def Db.upTo (db : Db) (b : SnapshotBoundary) : List LogRow :=
  db.log.rows.filter fun row => row.seq ≤ b.logSize

/-- The answer of `/v1/log` at a boundary: the entries after `since`, in their order. -/
def LogRequest.reference (request : LogRequest) (db : Db) (b : SnapshotBoundary) : List Json :=
  ((db.upTo b).filter fun row => (request.since : Int) < row.seq).map fun row =>
    (row.entry P).encoded

/-- A row that a request of records asks for. -/
def RecordsRequest.wants (request : RecordsRequest) (row : LogRow) : Bool :=
  (request.sourceIdentity = [] ||
    (row.sourceIdentity = request.sourceIdentity && row.commitHash = request.commit)) &&
  (request.contentSha256 = [] ||
    (row.contentSha256 = request.contentSha256 &&
      RecordsQuery.version (row.key P) =
        sqlInteger (if request.hashVersion = py "2" then 2 else 1)))

/-- The answer of `/v1/records` at a boundary: of the last records of the keys, those that the
    request asks for, in the order of the keys. -/
def RecordsRequest.reference (request : RecordsRequest) (db : Db) (b : SnapshotBoundary) :
    List Json :=
  ((projection (LogRow.key P) (db.upTo b)).filter (request.wants P)).map fun row =>
    .obj (row.record P)

/-! ## Rows that were written -/

/-- The rows of a database hold the texts of the records they were written for. -/
def Recorded (db : Db) : Prop := ∀ row ∈ db.log.rows, ∃ record : Record,
  row.recordJson = (Json.obj record.members).dumps ∧ row.record P = record.members

variable {P}

/-- A row is keyed by the artifact that its record is about. -/
theorem Holds.key_eq {row : LogRow} {record : Dict} {body : Bytes} (h : Holds P row record body) :
    row.key P = artifactKey record := by
  rw [LogRow.key, h.record_eq, LogRow.recordKey, artifactKey, strField, strField, strField, strField,
    h.name, h.sourceIdentity, h.commit, h.contentSha256]

theorem Recorded.congr {db db' : Db} (h : Recorded P db) (hl : db'.log.rows = db.log.rows) :
    Recorded P db' := by
  rw [Recorded, hl]
  exact h

theorem Recorded.append {db db' : Db} (h : Recorded P db) {record : Record} {createdAt : PyStr}
    {body root : Bytes} {frontier : List (Merkle.Summary Bytes)} {entry : LogEntry}
    (ha : Appended P db record.members createdAt body frontier root entry db') :
    Recorded P db' := by
  intro row hrow
  rw [ha.log_rows] at hrow
  rcases List.mem_append.1 hrow with hrow | hrow
  · exact h row hrow
  · obtain rfl := List.mem_singleton.1 hrow
    exact ⟨record, rfl, (ha.holds record.sorted record.numeral).record_eq⟩

theorem Recorded.imports {createdAt : PyStr} {records : List (PyStr × Dict)} {db db' : Db}
    {entries : List LogEntry} (himports : Imports P createdAt records db entries db')
    (hr : ∀ r ∈ records, (Json.obj r.2).Sorted ∧ (Json.obj r.2).Numeral) (h : Recorded P db) :
    Recorded P db' := by
  induction himports with
  | nil => exact h
  | skip _ _ ih => exact ih (List.forall_mem_cons.1 hr).2 h
  | @take _ record _ _ _ _ _ _ _ _ _ _ appended _ ih =>
    obtain ⟨⟨hs, hn⟩, hr⟩ := List.forall_mem_cons.1 hr
    have hrecorded := h.append (show Appended P _ (Record.mk record hs hn).members _ _ _ _ _ _ from
      appended)
    exact ih hr (hrecorded.congr (by rw [Db.log_markImported]))

/-- Every call keeps the rows recorded. -/
theorem Performs.recorded {call : Call} {db db' : Db} {response : Response}
    {published : Option LogEntry} (h : Performs P call db response published db')
    (hr : Recorded P db) : Recorded P db' := by
  cases h with
  | append appended => exact hr.append appended
  | replay => exact hr
  | submit _ _ _ appended =>
    refine Recorded.congr (Recorded.append ?_ appended) rfl
    exact hr.congr rfl
  | imports h => exact Recorded.imports h (sorted_recordDicts _) hr
  | importsOffered _ _ h => exact (Recorded.imports h (sorted_recordDicts _) hr).congr rfl
  | upstream _ _ h =>
    split_ifs
    · exact (Recorded.imports h (sorted_recordDicts _) hr).congr rfl
    · exact Recorded.imports h (sorted_recordDicts _) hr

/-- What other connections commit keeps the rows recorded. -/
theorem Grows.recorded {db db' : Db} (h : Grows P db db') (hr : Recorded P db) :
    Recorded P db' := by
  induction h with
  | refl => exact hr
  | tail _ hw ih =>
    cases hw with
    | call performs => exact performs.recorded ih
    | start env locked =>
      exact ih.congr (by rw [(openStore_kept env locked _).log])

/-! ## Reading -/

/-- SQLite keys a row as the registry does. -/
theorem Recorded.keyedRow_eq {db : Db} (h : Recorded P db) {row : LogRow} (hr : row ∈ db.log.rows) :
    keyedRow row = .ok (row.key P, row) := by
  obtain ⟨record, hjson, hrecord⟩ := h row hr
  rw [keyedRow, hjson, hashVersionColumn_dumps record.numeral, LogRow.key, hrecord]
  rfl

section Ranked

variable (P) in
/-- The rows that the clauses of a query select. -/
def RecordsQuery.selects (q : RecordsQuery) (row : LogRow) : Bool :=
  q.columns row && q.versions (row.key P)

/-- What a query selects is decided by the key. -/
theorem RecordsQuery.selects_congr (q : RecordsQuery) {a c : LogRow} (h : a.key P = c.key P) :
    q.selects P a = q.selects P c := by
  have hkey := h
  simp only [LogRow.key, LogRow.recordKey, toLex_inj, Prod.mk.injEq] at hkey
  obtain ⟨-, hidentity, hcommit, -, hcontent⟩ := hkey
  rw [selects, selects, h, columns, columns, hidentity, hcommit, hcontent]

/-- What a request asks for is what its query selects. -/
theorem wants_eq (request : RecordsRequest) (row : LogRow) :
    request.wants P row = request.filters.selects P row := by
  have hversion : request.contentSha256 ≠ [] → request.selectedHashVersion.getD 1 =
      if request.hashVersion = py "2" then 2 else 1 := by
    intro hne
    rw [RecordsRequest.selectedHashVersion, if_neg hne]
    split_ifs <;> rfl
  have hcolumns : request.filters.columns row = true ↔
      (request.sourceIdentity = [] ∨
        row.sourceIdentity = request.sourceIdentity ∧ row.commitHash = request.commit) ∧
      (request.contentSha256 = [] ∨ row.contentSha256 = request.contentSha256) := by
    rw [RecordsQuery.columns, Bool.and_eq_true, Bool.or_eq_true, Bool.or_eq_true, Bool.and_eq_true]
    simp only [decide_eq_true_eq]
    exact Iff.rfl
  have hversions : request.filters.versions (row.key P) = true ↔ request.contentSha256 = [] ∨
      RecordsQuery.version (row.key P) = sqlInteger (request.selectedHashVersion.getD 1) := by
    rw [RecordsQuery.versions, Bool.or_eq_true]
    simp only [decide_eq_true_eq]
    exact Iff.rfl
  rw [Bool.eq_iff_iff, RecordsQuery.selects, Bool.and_eq_true, hcolumns, hversions]
  simp only [RecordsRequest.wants, Bool.and_eq_true, Bool.or_eq_true, decide_eq_true_eq]
  by_cases hne : request.contentSha256 = []
  · simp only [hne, true_or, and_true]
  · simp only [hne, false_or, hversion hne, and_assoc]

/-- Where SQLite keys the rows as the registry does, filtering before ranking, as the query
    does, is filtering after it. -/
theorem rankedRows_keyed {db : Db} {q : RecordsQuery} {b : SnapshotBoundary}
    (h : ∀ row ∈ db.upTo b, keyedRow row = .ok (row.key P, row)) :
    rankedRows db q b.logSize = .ok (((projection (LogRow.key P) (db.upTo b)).filter
      (q.selects P)).map fun row => (row.key P, row)) := by
  have hkeyed : (db.log.rows.filter fun row => row.seq ≤ b.logSize && q.columns row).mapM keyedRow =
      .ok ((db.log.rows.filter fun row => row.seq ≤ b.logSize && q.columns row).map fun row =>
        (row.key P, row)) := by
    refine mapM_eq_ok fun row hrow => h row ?_
    obtain ⟨hmem, hclauses⟩ := List.mem_filter.1 hrow
    exact List.mem_filter.2 ⟨hmem, (Bool.and_eq_true_iff.1 hclauses).1⟩
  have hfilter : ((db.log.rows.filter fun row => row.seq ≤ b.logSize && q.columns row).filter
      fun row => q.versions (row.key P)) = (db.upTo b).filter (q.selects P) := by
    rw [Db.upTo, List.filter_filter, List.filter_filter]
    refine List.filter_congr fun row _ => ?_
    rw [RecordsQuery.selects]
    cases q.versions (row.key P) <;> cases q.columns row <;> simp
  rw [rankedRows, hkeyed]
  change Except.ok (projection Prod.fst (List.filter _ (List.map _ _))) = _
  rw [List.filter_map, projection_map]
  change Except.ok (List.map _ (projection (LogRow.key P) (List.filter (fun row =>
    q.versions (row.key P)) _))) = _
  rw [hfilter, projection_filter _ fun _ _ => q.selects_congr]

/-- The rows that are ranked for a request are the last ones of the keys that it asks for. -/
theorem rankedRows_eq {db : Db} (hrecorded : Recorded P db) {request : RecordsRequest}
    {b : SnapshotBoundary} :
    rankedRows db request.filters b.logSize =
      .ok (((projection (LogRow.key P) (db.upTo b)).filter (request.wants P)).map fun row =>
        (row.key P, row)) := by
  rw [rankedRows_keyed fun row hrow => hrecorded.keyedRow_eq (List.mem_of_mem_filter hrow),
    List.filter_congr fun row _ => wants_eq request row]

end Ranked

section Pages

variable {db : Db} {maxSeq : Option Int} {boundary : Option SnapshotBoundary}
  {b : SnapshotBoundary} {n offset : Nat} (h : Chained P db)
  (hcap : pageBoundary db boundary maxSeq = .ok b) (hn : b.logSize = n)
  (hmax : (n : Int) ≤ maxSafeInteger) (hoffset : (offset : Int) ≤ maxSafeInteger)
include h hcap hn hmax hoffset

/-- A page of the log that is read is a page of the answer. -/
theorem LogRequest.reader_page {request : LogRequest} (hsince : (request.since : Int) ≤ maxInteger) :
    request.reader P db offset maxSeq boundary =
      .ok (page request.limit offset (request.reference P db b)) := by
  have hrows : (db.upTo b).filter (fun row => (request.since : Int) < row.seq) =
      (db.log.rows.take n).drop request.since := by
    rw [← h.logBetween_eq, Db.upTo, hn, List.filter_filter, Db.logBetween]
  rw [LogRequest.reader, logPage_eq h hcap hn (LogRequest.bindInt_eq_ok hmax hoffset hsince),
    LogRequest.reference, hrows, page_map]
  simp only [Except.map, List.map_map]
  rfl

/-- A page of the records that is read is a page of the answer. -/
theorem RecordsRequest.reader_page {request : RecordsRequest} (hchecked : request.Checked)
    (hidentity : Scalar request.sourceIdentity) (hrecorded : Recorded P db) :
    request.reader P db offset maxSeq boundary =
      .ok (page request.limit offset (request.reference P db b)) := by
  rw [RecordsRequest.reader_eq hchecked hcap hn h hmax hoffset hidentity, ← hn,
    rankedRows_eq hrecorded, RecordsRequest.reference, page_map]
  simp only [Except.map, page_map, List.map_map]
  rfl

end Pages

/-! ## Growth -/

section Growth

variable {db db' : Db} (h : Chained P db) (hgrows : Grows P db db') (h' : Chained P db')
  {b : SnapshotBoundary} {n : Nat} (hn : b.logSize = n) (hle : n ≤ db.log.rows.length)
include h hgrows h' hn hle

/-- Rows that are added later are not up to a boundary. -/
theorem Grows.upTo_eq : db'.upTo b = db.upTo b := by
  obtain ⟨rest, hrest⟩ := hgrows.log_prefix
  have htake {db : Db} (h : Chained P db) : db.upTo b = db.log.rows.take n := by
    have := h.filter_upTo n fun _ => true
    simpa only [Bool.and_true, List.filter_true, Db.upTo, hn] using this
  rw [htake h, htake h', ← hrest, List.take_append_of_le_length hle]

theorem Grows.log_reference (request : LogRequest) :
    request.reference P db' b = request.reference P db b := by
  rw [LogRequest.reference, hgrows.upTo_eq h h' hn hle, LogRequest.reference]

theorem Grows.records_reference (request : RecordsRequest) :
    request.reference P db' b = request.reference P db b := by
  rw [RecordsRequest.reference, hgrows.upTo_eq h h' hn hle, RecordsRequest.reference]

end Growth

end SkillRegistry
