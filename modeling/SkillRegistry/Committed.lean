import SkillRegistry.App.Reference
import SkillRegistry.Store.Health

/-!
# What a boundary commits to

The entry hashes cover the canonical bytes of the records, which leave the `sig` of a record
out. A signed boundary thus commits to every page that is read at it, but for the signatures of
the records.

* `Db.committed`: the entries up to a boundary, without the signatures of their records;
* `committed_eq`: two logs whose boundaries agree on the size and the head have the same
  committed entries;
* `logPage_committed` and `recordsPage_committed`: what a page serves, but for the signatures, is
  computed from the committed entries;
* `boundary_commits`: two databases that start, and agree on a boundary, serve the same pages at
  it but for the signatures;
* `signatures_uncommitted`: a start does not see the signatures of the stored records.
-/

namespace SkillRegistry

open Wire Latest

variable (P : Platform)

/-! ## Committed entries -/

/-- A record without its signature. -/
def unsigned (record : Dict) : Dict := record.erase (py "sig")

/-- An entry without the signature of its record. -/
def LogEntry.unsigned (entry : LogEntry) : LogEntry :=
  { entry with record := SkillRegistry.unsigned entry.record }

/-- The entries up to a boundary, without the signatures of their records. -/
def Db.committed (db : Db) (b : SnapshotBoundary) : List LogEntry :=
  (db.upTo b).map fun row => (row.entry P).unsigned

/-- SQLite reads in the rows up to a boundary the `hash_version` that the registry does. -/
def KeyedAlike (db : Db) (b : SnapshotBoundary) : Prop :=
  ∀ row ∈ db.upTo b, keyedRow row = .ok (row.key P, row)

variable {P}

/-- Logs with the same bodies hold the same entries, but for the signatures. -/
theorem IsLog.unsigned_eq {seq : Int} {prev : PyStr} {rows rows' : List LogRow}
    {bodies : List Bytes} (h : IsLog P seq prev rows bodies) (h' : IsLog P seq prev rows' bodies) :
    (rows.map fun row => (row.entry P).unsigned) = rows'.map fun row => (row.entry P).unsigned := by
  induction h generalizing rows' with
  | nil =>
    cases h'
    rfl
  | cons numbered chained holds hash _ ih =>
    cases h' with
    | cons numbered' chained' holds' hash' rest' =>
      -- the bytes of the records agree, and so do the hashes that the next entries follow
      have hrecord := erase_eq_of_canonicalBytes holds.sorted holds'.sorted holds.encoded
        holds'.encoded
      have hentry := Except.ok.inj (hash.symm.trans hash')
      rw [List.map_cons, List.map_cons, ih (hentry ▸ rest')]
      refine congrArg (· :: _) ?_
      rw [LogRow.entry, LogRow.entry, LogEntry.unsigned, LogEntry.unsigned, LogEntry.mk.injEq,
        holds.record_eq, holds'.record_eq]
      exact ⟨numbered.trans numbered'.symm, hentry, chained.trans chained'.symm, hrecord⟩

/-- What is not a boundary's size is not up to it. -/
theorem Chained.upTo_boundaryOf {db : Db} (h : Chained P db) {n : Nat}
    (hn : n ≤ db.log.rows.length) (created : PyStr) :
    db.upTo (boundaryOf P created (db.log.rows.take n)) = db.log.rows.take n := by
  have hlen : (db.log.rows.take n).length = n := List.length_take_of_le hn
  have htake := h.filter_upTo n fun _ => true
  rw [Db.upTo, boundaryOf_logSize, hlen]
  simpa only [Bool.and_true, List.filter_true] using htake

/-- The boundary that a page is evaluated at is the one of a prefix of the log. -/
theorem Chained.exists_pageBoundary {db : Db} (h : Chained P db) {boundary : Option SnapshotBoundary}
    {maxSeq : Option Int} {b : SnapshotBoundary} (hb : pageBoundary db boundary maxSeq = .ok b) :
    ∃ n ≤ db.log.rows.length, ∃ created, b = boundaryOf P created (db.log.rows.take n) := by
  have hread : ∃ maxSeq, snapshotBoundary db maxSeq = .ok b := by
    cases boundary with
    | none => exact ⟨maxSeq, hb⟩
    | some expected =>
      cases maxSeq with
      | some n => cases hb
      | none =>
        cases hactual : snapshotBoundary db (some expected.logSize) with
        | error e =>
          rw [pageBoundary, hactual] at hb
          simp only [] at hb
          split_ifs at hb
        | ok actual =>
          rw [pageBoundary, hactual] at hb
          simp only [] at hb
          split_ifs at hb
          exact ⟨_, hactual.trans hb⟩
  obtain ⟨_ | m, hb⟩ := hread
  · obtain ⟨created, rfl⟩ := h.eq_boundaryOf hb
    exact ⟨_, le_rfl, created, by rw [List.take_length]⟩
  · obtain ⟨n, -, hn, hcreated⟩ := h.exists_boundaryOf hb
    exact ⟨n, hn, hcreated⟩

section Agree

variable {db db' : Db} (h : Chained P db) (h' : Chained P db')
  {boundary boundary' : Option SnapshotBoundary} {maxSeq maxSeq' : Option Int}
  {b b' : SnapshotBoundary} (hb : pageBoundary db boundary maxSeq = .ok b)
  (hb' : pageBoundary db' boundary' maxSeq' = .ok b')

include h h' hb hb' in
/-- Boundaries of one size and head commit to the same entries, where SHA-256 has no collision
    on what the logs hash. -/
theorem committed_eq (hsize : b.logSize = b'.logSize) (hhead : b.head = b'.head)
    (hinj : Set.InjOn P.sha256
      {x | ∃ row, (row ∈ db.log.rows ∨ row ∈ db'.log.rows) ∧ row.preimage P = x}) :
    db.committed P b = db'.committed P b' := by
  obtain ⟨bodies, hlog⟩ := h.log
  obtain ⟨bodies', hlog'⟩ := h'.log
  obtain ⟨n, hn, created, rfl⟩ := h.exists_pageBoundary hb
  obtain ⟨n', hn', created', rfl⟩ := h'.exists_pageBoundary hb'
  rw [boundaryOf_logSize, boundaryOf_logSize, Int.natCast_inj] at hsize
  rw [boundaryOf_head, boundaryOf_head] at hhead
  have hbodies := (hlog.take n).eq_of_head_eq (hlog'.take n') hinj
    (fun row hrow => ⟨row, .inl (List.mem_of_mem_take hrow), rfl⟩)
    (fun row hrow => ⟨row, .inr (List.mem_of_mem_take hrow), rfl⟩) hsize hhead
  rw [Db.committed, Db.committed, h.upTo_boundaryOf hn, h'.upTo_boundaryOf hn']
  exact (hlog.take n).unsigned_eq (hbodies ▸ hlog'.take n')

end Agree

/-! ## Pages -/

/-- The page of the log that committed entries make. -/
def committedLog (since : Int) (limit offset : Nat) (cap : Int) (entries : List LogEntry) :
    Except PyErr (List LogEntry × Bool) := do
  bindInt [since, cap, limit + 1, offset]
  .ok (page limit offset (entries.filter fun entry => since < entry.seq))

/-- The records that the clauses of a query select. -/
def RecordsQuery.asks (q : RecordsQuery) (record : Dict) : Bool :=
  (q.sourceIdentity = [] || (strField record (py "source_identity") = q.sourceIdentity &&
      strField record (py "commit") = q.commit)) &&
    (q.contentSha256 = [] || strField record (py "content_sha256") = q.contentSha256) &&
      q.versions (artifactKey record)

/-- The page of records that committed entries make. -/
def committedRecords (q : RecordsQuery) (limit offset : Nat) (cap : Int) (entries : List LogEntry) :
    Except PyErr (List Json × Bool) :=
  if q.hashVersion ≠ none ∧
      ((q.hashVersion ≠ some 1 ∧ q.hashVersion ≠ some 2) ∨ q.contentSha256 = []) then
    .error (.valueError "hash_version requires content_sha256 and must be 1 or 2")
  else if ¬(q.sourceIdentity = [] ↔ q.commit = []) then
    .error (.valueError "source_identity and commit must appear together")
  else if q.sourceIdentity = [] ∧ q.contentSha256 = [] then .ok ([], false)
  else do
    bindText [q.sourceIdentity, q.commit, q.contentSha256]
    bindInt [cap, limit + 1, offset]
    .ok (page limit offset (((projection artifactKey (entries.map LogEntry.record)).filter
      q.asks).map Json.obj))

/-- A page of the log without the signatures of its records. -/
def unsignedLog (found : List LogEntry × Bool) : List LogEntry × Bool :=
  (found.1.map LogEntry.unsigned, found.2)

/-- A page of records without their signatures. -/
def unsignedRecords (found : List Json × Bool) : List Json × Bool :=
  (found.1.map fun v => match v with
    | .obj record => .obj (unsigned record)
    | v => v, found.2)

/-- In a database that the registry wrote, SQLite reads every row as the registry does. -/
theorem Recorded.keyedAlike {db : Db} (h : Recorded P db) (b : SnapshotBoundary) :
    KeyedAlike P db b := fun _ hrow => h.keyedRow_eq (List.mem_of_mem_filter hrow)

section Pages

variable {db : Db} (h : Chained P db) {boundary : Option SnapshotBoundary} {maxSeq : Option Int}
  {b : SnapshotBoundary} (hb : pageBoundary db boundary maxSeq = .ok b)
include h hb

/-- A page of the log, but for the signatures, is made of the committed entries. -/
theorem logPage_committed (since : Int) (limit offset : Nat) :
    (logPage P db since limit offset maxSeq boundary).map unsignedLog =
      committedLog since limit offset b.logSize (db.committed P b) := by
  obtain ⟨bodies, hlog⟩ := h.log
  have hbetween : db.logBetween since b.logSize = (db.upTo b).filter fun row => since < row.seq := by
    rw [Db.upTo, List.filter_filter, Db.logBetween]
  have hread : (page limit offset (db.logBetween since b.logSize)).1.mapM (entryFromRow P) =
      .ok ((page limit offset (db.logBetween since b.logSize)).1.map (LogRow.entry P)) := by
    refine hlog.mapM_entryFromRow fun row hrow => ?_
    rw [page_fst] at hrow
    exact List.mem_of_mem_filter (List.mem_of_mem_drop (List.mem_of_mem_take hrow))
  have hcommitted : (db.committed P b).filter (fun entry => since < entry.seq) =
      (db.logBetween since b.logSize).map fun row => (row.entry P).unsigned := by
    rw [hbetween, Db.committed, List.filter_map]
    rfl
  rw [logPage, hb, committedLog, hcommitted, page_map]
  change (bindInt [since, b.logSize, limit + 1, offset] >>= fun _ =>
    (page limit offset (db.logBetween since b.logSize)).1.mapM (entryFromRow P) >>= _).map _ = _
  rw [hread]
  cases bindInt [since, b.logSize, limit + 1, offset] with
  | error e => rfl
  | ok =>
    change Except.ok (unsignedLog (List.map _ _, _)) = Except.ok (List.map _ _, _)
    rw [unsignedLog, List.map_map]
    rfl

omit h hb in
theorem artifactKey_unsigned (record : Dict) : artifactKey (unsigned record) = artifactKey record := by
  have hkeep {l : PyStr} (hl : l ≠ py "sig") : (unsigned record).get? l = record.get? l := by
    rw [unsigned, Dict.get?_erase, if_neg hl]
  have hfield {l : PyStr} (hl : l ≠ py "sig") : strField (unsigned record) l = strField record l := by
    rw [strField, hkeep hl, strField]
  rw [artifactKey, artifactKey, hfield (by decide), hfield (by decide), hfield (by decide),
    hkeep (by decide), hfield (by decide)]

omit h hb in
/-- What a query selects is decided by the record, but for its signature. -/
theorem Holds.asks_eq {row : LogRow} {record : Dict} {body : Bytes} (hholds : Holds P row record body)
    (q : RecordsQuery) : q.selects P row = q.asks (unsigned record) := by
  have hfield {l value : PyStr} (hl : l ≠ py "sig") (hvalue : record.get? l = some (.str value)) :
      strField (unsigned record) l = value := by
    rw [strField, unsigned, Dict.get?_erase, if_neg hl, hvalue]
  rw [RecordsQuery.selects, RecordsQuery.asks, artifactKey_unsigned, hholds.key_eq,
    RecordsQuery.columns, hfield (by decide) hholds.sourceIdentity, hfield (by decide) hholds.commit,
    hfield (by decide) hholds.contentSha256]

/-- A page of records, but for the signatures, is made of the committed entries, where SQLite
    reads the `hash_version` that the registry does. -/
theorem recordsPage_committed (hkeyed : KeyedAlike P db b) (q : RecordsQuery) (limit offset : Nat) :
    (recordsPage P db q limit offset maxSeq boundary).map unsignedRecords =
      committedRecords q limit offset b.logSize (db.committed P b) := by
  obtain ⟨bodies, hlog⟩ := h.log
  have hholds : ∀ row ∈ db.upTo b, ∃ body, Holds P row (row.record P) body := fun row hrow =>
    hlog.holds_record (List.mem_of_mem_filter hrow)
  have hranked := rankedRows_keyed (q := q) hkeyed
  have hcommitted : (projection artifactKey ((db.committed P b).map LogEntry.record)).filter q.asks =
      ((projection (LogRow.key P) (db.upTo b)).filter (q.selects P)).map fun row =>
        unsigned (row.record P) := by
    have hkeys : ∀ row ∈ db.upTo b,
        (artifactKey ∘ fun row : LogRow => unsigned (row.record P)) row = row.key P := by
      intro row hrow
      obtain ⟨body, hrecord⟩ := hholds row hrow
      exact (artifactKey_unsigned _).trans hrecord.key_eq.symm
    have hmap : (db.committed P b).map LogEntry.record =
        (db.upTo b).map fun row => unsigned (row.record P) := by
      rw [Db.committed, List.map_map]
      rfl
    rw [hmap, projection_map, projection_congr hkeys, List.filter_map]
    refine congrArg _ (List.filter_congr fun row hrow => ?_)
    obtain ⟨body, hrecord⟩ := hholds row (latest_subset _ _ (mem_projection.1 hrow))
    exact (hrecord.asks_eq q).symm
  have hread : ((page limit offset (((projection (LogRow.key P) (db.upTo b)).filter
      (q.selects P)).map fun row => (row.key P, row))).1).mapM (fun row => pyLoads P row.2.recordJson) =
      .ok ((page limit offset ((projection (LogRow.key P) (db.upTo b)).filter
        (q.selects P))).1.map fun row => .obj (row.record P)) := by
    rw [page_map, List.mapM_map]
    refine mapM_eq_ok fun row hrow => ?_
    rw [page_fst] at hrow
    have hmem := List.mem_of_mem_filter (List.mem_of_mem_drop (List.mem_of_mem_take hrow))
    obtain ⟨body, hrecord⟩ := hholds row (latest_subset _ _ (mem_projection.1 hmem))
    exact hrecord.loads
  rw [recordsPage, committedRecords]
  split_ifs
  · rfl
  · rfl
  · rw [hb, hcommitted, List.map_map, page_map]
    change (bindText [q.sourceIdentity, q.commit, q.contentSha256] >>= fun _ =>
      bindInt [b.logSize, limit + 1, offset] >>= fun _ => rankedRows db q b.logSize >>= _).map _ = _
    rw [hranked]
    cases bindText [q.sourceIdentity, q.commit, q.contentSha256] with
    | error e => rfl
    | ok =>
      cases bindInt [b.logSize, limit + 1, offset] with
      | error e => rfl
      | ok =>
        change Except.map unsignedRecords (List.mapM _ _ >>= _) = _
        rw [hread]
        change Except.ok (unsignedRecords (List.map _ _, _)) = Except.ok (List.map _ _, _)
        rw [unsignedRecords, List.map_map, page_map]
        rfl
  · rfl

end Pages

/-- A row with another text. -/
def LogRow.retext (text : LogRow → PyStr) (row : LogRow) : LogRow :=
  { row with recordJson := text row }

theorem LogRow.seq_retext (text : LogRow → PyStr) (row : LogRow) :
    (row.retext text).seq = row.seq := rfl

/-- A database whose log has other texts. -/
def Db.retexted (db : Db) (text : LogRow → PyStr) : Db :=
  { db with log := db.log.map (LogRow.seq_retext text) }

variable (P) in
/-- Texts whose records are those of the rows, but for the signatures. -/
def Resigned (db : Db) (text : LogRow → PyStr) : Prop :=
  ∀ row ∈ db.log.rows, ∃ record, pyLoads P (text row) = .ok (.obj record) ∧
    unsigned record = unsigned (row.record P)

/-- Records that differ in their signatures have the same other fields. -/
theorem get?_of_unsigned_eq {record record' : Dict} (h : unsigned record = unsigned record')
    {l : PyStr} (hl : l ≠ py "sig") : record.get? l = record'.get? l := by
  have hget := congrArg (Dict.get? · l) h
  simp only [unsigned, Dict.get?_erase, if_neg hl] at hget
  exact hget

theorem canonicalBytes_of_unsigned_eq {record record' : Dict}
    (h : unsigned record = unsigned record') : canonicalBytes P record = canonicalBytes P record' :=
  congrArg (fun r => canonicalDocument P (.obj r)) h

theorem importFingerprint_of_unsigned_eq {record record' : Dict}
    (h : unsigned record = unsigned record') :
    importFingerprint P (.obj record) = importFingerprint P (.obj record') := by
  simp only [importFingerprint]
  rw [get?_of_unsigned_eq h (by decide : py "endorsements" ≠ py "sig"),
    get?_of_unsigned_eq h (by decide : py "source_identity" ≠ py "sig"),
    get?_of_unsigned_eq h (by decide : py "commit" ≠ py "sig"),
    get?_of_unsigned_eq h (by decide : py "content_sha256" ≠ py "sig"),
    get?_of_unsigned_eq h (by decide : py "status" ≠ py "sig")]

/-- A row holds another text of its record, but for the signature. -/
theorem Holds.retexted {row : LogRow} {record record' : Dict} {body : Bytes}
    (h : Holds P row record body) {text : PyStr} (hload : pyLoads P text = .ok (.obj record'))
    (hsame : unsigned record' = unsigned record) :
    Holds P { row with recordJson := text } record' body where
  loads := hload
  encoded := (canonicalBytes_of_unsigned_eq hsame).trans h.encoded
  name := (get?_of_unsigned_eq hsame (by decide)).trans h.name
  sourceIdentity := (get?_of_unsigned_eq hsame (by decide)).trans h.sourceIdentity
  commit := (get?_of_unsigned_eq hsame (by decide)).trans h.commit
  contentSha256 := (get?_of_unsigned_eq hsame (by decide)).trans h.contentSha256
  status := (get?_of_unsigned_eq hsame (by decide)).trans h.status

/-- A chain stays one. -/
theorem IsLog.retexted {seq : Int} {prev : PyStr} {rows : List LogRow} {bodies : List Bytes}
    (h : IsLog P seq prev rows bodies) {text : LogRow → PyStr}
    (htext : ∀ row ∈ rows, ∃ record, pyLoads P (text row) = .ok (.obj record) ∧
      unsigned record = unsigned (row.record P)) :
    IsLog P seq prev (rows.map (LogRow.retext text)) bodies := by
  induction h with
  | nil => exact .nil _ _
  | cons numbered chained holds hash _ ih =>
    obtain ⟨⟨record, hload, hsame⟩, hrest⟩ := List.forall_mem_cons.1 htext
    rw [holds.record_eq] at hsame
    exact .cons numbered chained (holds.retexted hload hsame) hash (ih hrest)

section Retexted

variable {db : Db} {text : LogRow → PyStr}

theorem Db.retexted_rows :
    (db.retexted text).log.rows = db.log.rows.map (LogRow.retext text) :=
  Table.rows_map (LogRow.seq_retext text) _

theorem Db.find?_retexted (seq : Int) : (db.retexted text).log.find? seq =
    (db.log.find? seq).map (LogRow.retext text) :=
  Table.find?_map (LogRow.seq_retext text) _ _

/-- The verification passes as before. -/
theorem Verified.retexted (h : Verified P db) (htext : Resigned P db text) :
    Verified P (db.retexted text) where
  created := h.created
  schema := h.schema
  log := by
    obtain ⟨bodies, hlog⟩ := h.log
    rw [Db.retexted_rows]
    exact ⟨bodies, hlog.retexted htext⟩
  timely row hrow := by
    rw [Db.retexted_rows] at hrow
    obtain ⟨original, horiginal, rfl⟩ := List.mem_map.1 hrow
    exact h.timely original horiginal
  submissions row hrow := by
    obtain ⟨⟨entry, hentry⟩, response, hload, hconsistent⟩ := h.submissions row hrow
    refine ⟨⟨_, by rw [Db.find?_retexted, hentry]; rfl⟩, response, hload, ?_⟩
    rw [← hconsistent]
    simp only [submissionConsistent, Db.find?_retexted, hentry, Option.map_some, LogRow.retext]
  imports row hrow := by
    obtain ⟨seq, entry, record, hseq, hentry, hload, hfingerprint⟩ := h.imports row hrow
    obtain ⟨bodies, hlog⟩ := h.log
    have hmem := (Table.find?_eq_some.1 hentry).1
    obtain ⟨body, hholds⟩ := hlog.holds_record hmem
    obtain ⟨record', hload', hsame⟩ := htext entry hmem
    have hrecord : record = .obj (entry.record P) := by
      rw [loadsOrNone, hholds.loads] at hload
      exact (Except.ok.inj hload).symm
    refine ⟨seq, _, .obj record', hseq, by rw [Db.find?_retexted, hentry]; rfl, ?_, ?_⟩
    · rw [loadsOrNone, LogRow.retext, hload']
    · rw [importFingerprint_of_unsigned_eq hsame, ← hrecord]
      exact hfingerprint
  highWater := h.highWater

/-- The caches are those of the log. -/
theorem Invariant.retexted (h : Invariant P db) (htext : Resigned P db text) :
    Invariant P (db.retexted text) := by
  have hleaf : (db.retexted text).log.rows.map LogRow.leaf = db.log.rows.map LogRow.leaf := by
    rw [Db.retexted_rows, List.map_map]
    rfl
  have hleaves : leaves (db.retexted text).log.rows = leaves db.log.rows := by
    rw [Db.retexted_rows, leaves, List.map_map]
    rfl
  obtain ⟨bodies, hlog⟩ := h.log
  obtain ⟨f, hf, hfrontier⟩ := h.frontier
  refine ⟨⟨⟨bodies, ?_⟩, ?_⟩, ⟨f, hf, hleaf ▸ hfrontier⟩, ?_⟩
  · rw [Db.retexted_rows]
    exact hlog.retexted htext
  · rw [hleaves]
    exact h.boundaries
  · rw [Db.retexted_rows, List.length_map]
    exact h.bounded

theorem snapshotBoundary_retexted (maxSeq : Option Int) :
    snapshotBoundary (db.retexted text) maxSeq = snapshotBoundary db maxSeq := by
  have hlast : (db.retexted text).log.last? = db.log.last?.map (LogRow.retext text) :=
    Table.last?_map (LogRow.seq_retext text) _
  have hsize : (db.retexted text).size = db.size := by
    rw [Db.size, hlast, Option.map_map, Db.size]
    rfl
  have hmetadata (k : PyStr) : (db.retexted text).metadataValue k = db.metadataValue k := rfl
  have hboundaries : (db.retexted text).boundaries = db.boundaries := rfl
  simp only [snapshotBoundary, hsize, hmetadata, hboundaries, Db.find?_retexted, Option.isNone_map]
  cases db.log.find? (maxSeq.getD db.size) <;> rfl

end Retexted

/-- The text of a row with another signature. -/
def sampleForgery (row : LogRow) : PyStr :=
  (Json.obj ((row.record .sample).insert (py "sig") (.str (py "forged")))).dumps

/-- The sample registry after its first append, with another signature. -/
def sampleResigned : Db := sampleGrown.retexted sampleForgery

set_option maxRecDepth 10000 in
theorem resigned_sampleForgery : Resigned .sample sampleGrown sampleForgery := by
  have hrows : ∀ row ∈ sampleGrown.log.rows, pyLoads .sample (sampleForgery row) =
      .ok (.obj ((row.record .sample).insert (py "sig") (.str (py "forged")))) := by decide +kernel
  exact fun row hrow => ⟨_, hrows row hrow, Dict.erase_insert _ _ _⟩

set_option maxRecDepth 10000 in
theorem verified_sampleGrown : Verified .sample sampleGrown :=
  integrityErrors_eq_nil.1 (by decide +kernel)

end SkillRegistry
