import SkillRegistry.Store.Open
import SkillRegistry.Store.Total

/-!
# Checking the caches

The two checks of the boundaries and the frontier against the log, over any content of
these tables: the background verifier reports what differs, and a start rebuilds what is
missing.

* `healthPass_exact`: a health pass reports nothing exactly on the caches of the log;
* `ensureBoundaries_eq_error_iff`: a start refuses boundaries that are not those of the log;
* `startup_rebuilds`: otherwise it leaves the caches of the log, and the next append and the
  next start succeed.
-/

namespace SkillRegistry

open Wire Merkle

variable {P : Platform}

/-! ## The background verifier -/

/-- A comparison that finds nothing has found the boundaries expected, and the frontier
    recomputed when nothing was appended since. -/
theorem boundaryCacheErrors_eq_nil {db : Db} {bs : List (PyStr × PyStr × PyStr)} {walkedSize : Int}
    {frontierLength : Option Int} {stored recomputed : List (Summary Bytes)}
    (hsize : ((boundaryRows bs).length : Int) = db.size)
    (h : boundaryCacheErrors bs db.boundaries.rows walkedSize db.size frontierLength stored
      recomputed = []) :
    db.boundaries.rows = boundaryRows bs ∧ (db.size = walkedSize → stored = recomputed) := by
  unfold boundaryCacheErrors at h
  rw [List.append_eq_nil_iff, List.append_eq_nil_iff, List.flatMap_eq_nil_iff,
    List.flatMap_eq_nil_iff] at h
  obtain ⟨⟨hexpected, hstored⟩, hfrontier⟩ := h
  have hfind : ∀ row ∈ boundaryRows bs, db.boundaries.find? row.logSize = some row := by
    intro row hr
    have hrow := hexpected row hr
    rw [Table.find?]
    split at hrow
    · cases hrow
    · rename_i cached hcached
      exact hcached.trans (congrArg some (not_not.1 (flag_eq_nil.1 hrow)))
  have hrange : ∀ row ∈ db.boundaries.rows, 1 ≤ row.logSize ∧ row.logSize ≤ db.size := by
    intro row hr
    have hrow := hstored row hr
    split_ifs at hrow with h1
    exact ⟨not_lt.1 h1, not_lt.1 (flag_eq_nil.1 hrow)⟩
  refine ⟨congrArg Table.rows (Table.ext_mem (t := boundaryTable bs) fun row => ⟨fun hr => ?_,
    fun hr => (Table.find?_eq_some.1 (hfind row hr)).1⟩), fun hquiet => ?_⟩
  · -- a stored row has the size of an expected one, which is the row stored at that size
    obtain ⟨h1, hn⟩ := hrange row hr
    have hlt : row.logSize.toNat - 1 < (boundaryRows bs).length := by omega
    have hmem := List.getElem_mem hlt
    have hkey : (boundaryRows bs)[row.logSize.toNat - 1].logSize = row.logSize := by
      simp only [boundaryRows, List.getElem_mapIdx]
      omega
    have hsame := db.boundaries.eq_of_key_eq (Table.find?_eq_some.1 (hfind _ hmem)).1 hr hkey
    exact hsame ▸ hmem
  · split_ifs at hfrontier with hlength
    exact not_not.1 fun hne => flag_eq_nil.1 hfrontier ⟨hquiet, hne⟩

/-- The caches of a log without errors are those of the log. -/
theorem invariant_of_verifyBoundaryCache {db : Db} {bodies : List Bytes}
    (hlog : IsLog P 1 genesis db.log.rows bodies) (hn : (db.log.rows.length : Int) ≤ maxInteger)
    (h : SkillRegistry.verifyBoundaryCache P db = .ok []) : Invariant P db := by
  obtain ⟨f, hf, hf'⟩ := hlog.recomputePrefix hn
  have hsize : db.size = db.log.rows.length := (numbered_log hlog).last?
  rw [SkillRegistry.verifyBoundaryCache, show recomputePrefix P db.prefixLeaves = _ from hf] at h
  cases hload : loadFrontier P db with
  | error e =>
    rw [hload] at h
    cases e <;> cases h
  | ok stored =>
    rw [hload] at h
    obtain ⟨hboundaries, hquiet⟩ := boundaryCacheErrors_eq_nil (by
      rw [boundaryRows, List.length_mapIdx, prefixBoundaries_length, leaves_length, hsize])
      (Except.ok.inj h)
    obtain rfl := hquiet hsize
    exact ⟨⟨⟨bodies, hlog⟩, hboundaries⟩, ⟨stored, hload, hf'⟩, hn⟩

/-- The entries of a log are no more than SQLite can number. -/
theorem IsLog.length_le {rows : List LogRow} {bodies : List Bytes}
    (hlog : IsLog P 1 genesis rows bodies) (hint : ∀ row ∈ rows, row.seq ≤ maxInteger) :
    (rows.length : Int) ≤ maxInteger := by
  rcases List.eq_nil_or_concat rows with rfl | ⟨rows, row, rfl⟩
  · decide
  · rw [List.concat_eq_append] at hlog hint ⊢
    have hseq := hlog.seq_eq rows.length row (by rw [List.getElem?_concat_length])
    have hle := hint row (by simp)
    rw [List.length_append, List.length_singleton]
    omega

variable (P) in
/-- The parts of a database the verification checks next to its log and the caches of it: no
    check of the metadata and the ledgers reports anything. -/
structure LedgersSound (db : Db) : Prop where
  metadata : metadataErrors db = []
  foreignKeys : foreignKeyErrors db = []
  submissions : ∀ row ∈ db.idempotency.rows, submissionErrors P db row = .ok []
  imports : ∀ row ∈ db.imported.rows, importErrors P db row = .ok []
  highWater : ∀ row ∈ db.highWater.rows, row.wellFormed = true

/-- Where the ledgers are sound, the integrity check is the chain walk. -/
theorem LedgersSound.verified_iff {db : Db} (h : LedgersSound P db) :
    Verified P db ↔ (∃ bodies, IsLog P 1 genesis db.log.rows bodies) ∧
      ∀ row ∈ db.log.rows, isTimestamp row.createdAt = true := by
  refine ⟨fun hv => ⟨hv.log, hv.timely⟩, fun hl => ?_⟩
  obtain ⟨hcreated, hschema⟩ := metadataErrors_eq_nil.1 h.metadata
  refine ⟨hcreated, hschema, hl.1, hl.2, fun row hr => ?_,
    fun row hr => importErrors_eq_nil.1 (h.imports row hr), h.highWater⟩
  have hentry := (foreignKeyErrors_eq_nil.1 h.foreignKeys).2 row hr
  exact ⟨Option.ne_none_iff_exists'.1 hentry, submissionErrors_eq_nil.1 (h.submissions row hr)⟩

/-- A health pass over one read snapshot, whose metadata and ledgers are sound, reports no
    error exactly when the log is a chain of numbered entries that hold their records at well
    formed times, the boundaries are those of its prefixes, and the frontier decodes to the
    one of its leaves. The numbers of the entries are integers of SQLite. -/
theorem healthPass_exact {db : Db} (hint : ∀ row ∈ db.log.rows, row.seq ≤ maxInteger)
    (hledgers : LedgersSound P db) :
    healthErrors P db = .ok [] ↔ (∃ bodies, IsLog P 1 genesis db.log.rows bodies) ∧
      (∀ row ∈ db.log.rows, isTimestamp row.createdAt = true) ∧
      db.boundaries.rows = boundaryRows (prefixBoundaries P [] (leaves db.log.rows)) ∧
      ∃ f, loadFrontier P db = .ok f ∧
        IsFrontier (merklePairHash P) (db.log.rows.map LogRow.leaf) f := by
  constructor
  · intro h
    obtain ⟨errors, herrors, h⟩ := Wire.Except.bind_eq_ok h
    split_ifs at h with hnil
    · subst hnil
      obtain ⟨⟨bodies, hlog⟩, htimely⟩ := hledgers.verified_iff.1 (integrityErrors_eq_nil.1 herrors)
      have hi := invariant_of_verifyBoundaryCache hlog (hlog.length_le hint) h
      exact ⟨⟨bodies, hlog⟩, htimely, hi.boundaries, hi.frontier⟩
    · exact absurd (Except.ok.inj h) hnil
  · rintro ⟨⟨bodies, hlog⟩, htimely, hboundaries, hfrontier⟩
    exact healthErrors_eq_nil (hledgers.verified_iff.2 ⟨⟨bodies, hlog⟩, htimely⟩)
      ⟨⟨⟨bodies, hlog⟩, hboundaries⟩, hfrontier, hlog.length_le hint⟩

set_option maxRecDepth 10000 in
theorem ledgersSound_sampleGrown : LedgersSound .sample sampleGrown := by
  have hmetadata : metadataErrors sampleGrown = [] := by decide +kernel
  have hforeign : foreignKeyErrors sampleGrown = [] := by decide +kernel
  have hsubmissions : sampleGrown.idempotency.rows = [] := by decide +kernel
  have himports : sampleGrown.imported.rows = [] := by decide +kernel
  have hhighWater : sampleGrown.highWater.rows = [] := by decide +kernel
  refine ⟨hmetadata, hforeign, ?_, ?_, ?_⟩
  · rw [hsubmissions]
    exact List.forall_mem_nil _
  · rw [himports]
    exact List.forall_mem_nil _
  · rw [hhighWater]
    exact List.forall_mem_nil _

set_option maxRecDepth 10000 in
/-- A registry with one entry. -/
theorem healthPass_exact_sample : healthErrors .sample sampleGrown = .ok [] ↔
    (∃ bodies, IsLog .sample 1 genesis sampleGrown.log.rows bodies) ∧
      (∀ row ∈ sampleGrown.log.rows, isTimestamp row.createdAt = true) ∧
      sampleGrown.boundaries.rows =
        boundaryRows (prefixBoundaries .sample [] (leaves sampleGrown.log.rows)) ∧
      ∃ f, loadFrontier .sample sampleGrown = .ok f ∧
        IsFrontier (merklePairHash .sample) (sampleGrown.log.rows.map LogRow.leaf) f :=
  healthPass_exact (by decide +kernel) ledgersSound_sampleGrown

/-! ## The startup check -/

variable (P) in
/-- Every tail of the frontier is read, or is not JSON. -/
def Db.FrontierReadable (db : Db) : Prop :=
  ∀ row ∈ db.frontier.rows, ∀ e, pyLoads P row.tail = .error e → e = .jsonDecodeError

theorem loadLevels_eq_error {index : Nat} {rows : List FrontierRow} {e : PyErr}
    (hread : ∀ row ∈ rows, ∀ e, pyLoads P row.tail = .error e → e = .jsonDecodeError)
    (h : loadLevels P index rows = .error e) : ∃ m, e = .storeIntegrityError m := by
  induction rows generalizing index with
  | nil => cases h
  | cons row rows ih =>
    obtain ⟨hrow, hrows⟩ := List.forall_mem_cons.1 hread
    rcases Wire.Except.bind_eq_error.1 h with hlevel | ⟨level, -, hlevels⟩
    · rcases loadLevel_eq_error hlevel with hm | ⟨-, hloads, hne⟩
      · exact hm
      · exact absurd (hrow _ hloads) hne
    · rcases Wire.Except.bind_eq_error.1 hlevels with hlevels | ⟨levels, -, hok⟩
      · exact ih hrows hlevels
      · cases hok

/-- A frontier that can be read agrees with the recomputed one, or it does not. -/
theorem Db.FrontierReadable.frontierMatches {db : Db} (h : db.FrontierReadable P)
    (frontier : List (Summary Bytes)) :
    ∃ agrees, SkillRegistry.frontierMatches P db frontier = .ok agrees := by
  rw [SkillRegistry.frontierMatches]
  cases hload : loadFrontier P db with
  | ok stored => exact ⟨_, rfl⟩
  | error e =>
    obtain ⟨m, rfl⟩ := loadLevels_eq_error h hload
    exact ⟨false, rfl⟩

/-- The startup check of a log that can be recomputed is the comparison of its caches. -/
theorem IsLog.ensureBoundaries_eq {db : Db} {bodies : List Bytes}
    (hlog : IsLog P 1 genesis db.log.rows bodies) (hn : (db.log.rows.length : Int) ≤ maxInteger)
    (begins : Option PyErr) : ∃ f, IsFrontier (merklePairHash P) (db.log.rows.map LogRow.leaf) f ∧
      ensureBoundaries P begins db =
        reconcile P begins (boundaryRows (prefixBoundaries P [] (leaves db.log.rows))) f db := by
  obtain ⟨f, hf, hf'⟩ := hlog.recomputePrefix hn
  refine ⟨f, hf', ?_⟩
  rw [ensureBoundaries, if_neg (not_not.2 (numbered_seqs (numbered_log hlog))),
    show SkillRegistry.recomputePrefix P db.prefixLeaves = _ from hf]
  rfl

/-- While no other connection writes, the startup check raises exactly where a stored boundary
    is for a size outside the log or differs from the recomputed one. -/
theorem ensureBoundaries_eq_error_iff {db : Db} {bodies : List Bytes}
    (hlog : IsLog P 1 genesis db.log.rows bodies) (hn : (db.log.rows.length : Int) ≤ maxInteger)
    (hread : db.FrontierReadable P) : (∃ e, ensureBoundaries P none db = .error e) ↔
      ∃ row ∈ db.boundaries.rows,
        row ∉ boundaryRows (prefixBoundaries P [] (leaves db.log.rows)) := by
  obtain ⟨f, -, hensure⟩ := hlog.ensureBoundaries_eq hn none
  rw [hensure]
  constructor
  · rintro ⟨e, he⟩
    by_contra hstored
    push Not at hstored
    obtain ⟨agrees, hm⟩ := hread.frontierMatches f
    rw [reconcile_of_stored hstored hm] at he
    split_ifs at he
    cases he
  · rintro ⟨row, hr, hrow⟩
    cases hdone : reconcile P none
        (boundaryRows (prefixBoundaries P [] (leaves db.log.rows))) f db with
    | error e => exact ⟨e, rfl⟩
    | ok db' =>
      unfold reconcile at hdone
      split_ifs at hdone with hrange hagree
      exact absurd (reconcile_stored hrange hagree row hr) hrow

/-! ## Appends from the start -/

variable (P) in
/-- A database whose entries were appended one by one to empty tables. -/
inductive Written : Db → Prop
  | fresh {db : Db} (log : db.log.rows = []) (boundaries : db.boundaries.rows = [])
      (frontier : db.frontier.rows = []) : Written db
  | appended {db db' : Db} {record : Record} {createdAt : PyStr} {body root : Bytes}
      {frontier : List (Summary Bytes)} {entry : LogEntry} (before : Written db)
      (appended : Appended P db record.members createdAt body frontier root entry db') :
      Written db'

/-- What appends write are the caches of the log, the frontier in its own encoding. -/
theorem Written.caches {db : Db} (h : Written P db) : Invariant P db ∧
    ∃ f, loadFrontier P db = .ok f ∧ db.frontier = frontierTable f := by
  induction h with
  | @fresh db hl hb hf =>
    have hempty : db.frontier = frontierTable [] := Table.ext hf
    exact ⟨invariant_of_empty hl hb hf, [], by rw [loadFrontier, hf]; rfl, hempty⟩
  | @appended db db' record createdAt body root frontier entry _ ha ih =>
    have hi := ha.invariant record.sorted record.numeral ih.1
    have htable : db'.frontier = frontierTable frontier := by rw [ha.result]
    obtain ⟨f, hload, hf⟩ := hi.frontier
    obtain rfl := hf.unique (ha.isFrontier ih.1)
    exact ⟨hi, f, hload, htable⟩

/-- A call of `append` leaves a database of appends. -/
theorem Written.perform {c : Conn} (h : Written P c.disk) (env : Env) (s : Store) (record : Record)
    (createdAt : PyStr) : Written P (s.perform P env c (.append record createdAt)).conn.disk := by
  have hdone := perform_performed (P := P) env c s (.append record createdAt)
  generalize s.perform P env c (.append record createdAt) = o at hdone
  cases hdone with
  | refused => exact h
  | leftActive => exact h
  | done _ _ _ _ _ performs =>
    cases performs with
    | append appended => exact h.appended appended

/-! ## The next start -/

/-- A start on a file of the current schema whose caches are those of its log. -/
theorem openStore_current {env : OpenEnv} (hinterval : 0 < env.verifyInterval)
    (hfails : ∀ k, env.fails k = none) (locked : Bool) {db : Db} (hexisted : db.existed = true)
    (hversion : db.userVersion = 4) (hv : Verified P db) (hi : Invariant P db) :
    ∃ head, openStore P env locked db = (db, .ok (readyStore env head)) := by
  obtain ⟨created, hcreated, -⟩ := hv.created
  obtain ⟨head, hhead⟩ : ∃ head, storeHead db = .ok head := by
    rw [storeHead, hi.snapshotBoundary_none hcreated]
    exact ⟨_, rfl⟩
  have hmarker : requireMarker (some schemaVersion) markersDisagree db = .ok db :=
    if_pos hv.schema
  have hsound : requireSound P db = .ok db := by
    rw [requireSound, integrityErrors_eq_nil.2 hv]
    rfl
  refine ⟨head, ?_⟩
  rw [openStore, if_neg (not_le.2 hinterval), openStages, schemaStages, hexisted, hversion]
  simp only [not_true_eq_false, if_false, List.cons_append, List.nil_append, runStages, hfails,
    hmarker, hsound, hi.ensureBoundaries, hhead]
  rfl

/-! ## What a start rebuilds -/

variable (P) in
/-- What a start that raises nothing leaves of a database. -/
structure Rebuilt (db db' : Db) : Prop where
  frame : ∃ b f, db' = { db with boundaries := b, frontier := f }
  boundaries : db'.boundaries.rows = boundaryRows (prefixBoundaries P [] (leaves db.log.rows))
  frontier : ∃ f, IsFrontier (merklePairHash P) (db.log.rows.map LogRow.leaf) f ∧
    loadFrontier P db' = .ok f ∧ (db'.frontier = frontierTable f ∨ db' = db)
  /-- The tables are those of appends alone; a frontier that decodes to the one of appends may
      be left as it is encoded. -/
  written : ∀ w, Written P w → w.log = db.log → db'.boundaries = w.boundaries ∧
    (db'.frontier = w.frontier ∨ db' = db ∧ loadFrontier P db' = loadFrontier P w)
  append : db.logSequence ≤ db.size → db.size < maxInteger →
    ∀ (env : Env) (c : Conn) (s : Store) (record : Record) (createdAt : PyStr), env.Undisturbed →
      c.Free → c.disk = db' → s.requireWritesAllowed env.gateClock = .ok () →
      Appendable record.members → Scalar createdAt →
      ∃ entry, (s.perform P env c (.append record createdAt)).result = .ok (.entry entry)
  reopen : db.existed = true → db.userVersion = 4 →
    ∀ (env : OpenEnv) (locked : Bool), 0 < env.verifyInterval → (∀ k, env.fails k = none) →
      ∃ head, openStore P env locked db' = (db', .ok (readyStore env head))

/-- An append to a database that is ready returns the entry. -/
theorem Ready.append {db : Db} (hdb : Ready P db) (hroom : db.size < maxInteger) {env : Env}
    {c : Conn} {s : Store} {record : Record} {createdAt : PyStr} (henv : env.Undisturbed)
    (hc : c.Free) (hdisk : c.disk = db) (hgate : s.requireWritesAllowed env.gateClock = .ok ())
    (hr : Appendable record.members) (ht : Scalar createdAt) :
    ∃ entry, (s.perform P env c (.append record createdAt)).result = .ok (.entry entry) := by
  obtain ⟨entry, db', hruns⟩ := appendLocked_runs hdb hroom hr ht
  rw [← hdisk] at hruns
  have hbody : Tx.Runs c.disk (do
      StoreTx.gate s env
      (Call.append record createdAt).body P) (.entry entry, some entry) db' :=
    (StoreTx.runs_ofExcept hgate c.disk).bind (hruns.bind (Tx.runs_pure _ db'))
  refine ⟨entry, ?_⟩
  change (transact env c s _).result = _
  rw [transact_of_runs henv hc hbody]

/-- A start on a verified log, while no other connection writes, whatever the boundaries are
    and whatever the rows of the frontier are whose tails are read or are not JSON: it raises
    exactly where a stored boundary is for a size outside the log or differs from the
    recomputed one, and otherwise leaves the caches that appends write. -/
theorem startup_rebuilds {db : Db} (hverified : integrityErrors P db = .ok [])
    (hint : ∀ row ∈ db.log.rows, row.seq ≤ maxInteger) (hread : db.FrontierReadable P) :
    ((∃ e, ensureBoundaries P none db = .error e) ↔
      ∃ row ∈ db.boundaries.rows,
        row ∉ boundaryRows (prefixBoundaries P [] (leaves db.log.rows))) ∧
    ∀ db', ensureBoundaries P none db = .ok db' → Rebuilt P db db' := by
  have hv := integrityErrors_eq_nil.1 hverified
  obtain ⟨bodies, hlog⟩ := hv.log
  have hn := hlog.length_le hint
  refine ⟨ensureBoundaries_eq_error_iff hlog hn hread, fun db' hensure => ?_⟩
  obtain ⟨hi, hframe⟩ := ensureBoundaries_invariant hlog hn hensure
  obtain ⟨f, hf, hreconcile⟩ := hlog.ensureBoundaries_eq hn none
  rw [hreconcile] at hensure
  obtain ⟨hboundaries, -, hfrontier⟩ := reconcile_eq_ok hensure
  have hload : loadFrontier P db' = .ok f :=
    hfrontier.elim (fun hsame => hsame.1 ▸ hsame.2) (hlog.loadFrontier hf)
  obtain ⟨b, t, rfl⟩ := hframe
  refine ⟨⟨b, t, rfl⟩, hboundaries, ⟨f, hf, hload, ?_⟩, fun w hw hlogs => ?_, ?_, ?_⟩
  · exact hfrontier.elim (fun hsame => .inr hsame.1) .inl
  · obtain ⟨hwi, g, hg, hgt⟩ := hw.caches
    obtain ⟨g', hg', hgf⟩ := hwi.frontier
    obtain rfl := Except.ok.inj (hg.symm.trans hg')
    rw [hlogs] at hgf
    obtain rfl := hgf.unique hf
    refine ⟨Table.ext (hboundaries.trans ?_), ?_⟩
    · rw [hwi.boundaries, hlogs]
    · rcases hfrontier with hsame | htable
      · exact .inr ⟨hsame.1, hload.trans hg.symm⟩
      · exact .inl (htable.trans hgt.symm)
  · intro hsequence hroom env c s record createdAt henv hc hdisk hgate hr ht
    exact Ready.append ⟨hi, hsequence⟩ hroom henv hc hdisk hgate hr ht
  · intro hexisted hversion env locked hinterval hfails
    exact openStore_current hinterval hfails locked hexisted hversion
      (hv.congr rfl rfl rfl rfl rfl) hi

/-- A registry with one entry, whose boundaries are missing and whose frontier is no frontier. -/
def sampleStale : Db := { sampleGrown with
  boundaries := .empty, frontier := Table.empty.put ⟨5, -1, py "["⟩ }

set_option maxRecDepth 10000 in
/-- What is missing is filled in. -/
theorem startup_rebuilds_sample :
    ∃ db', ensureBoundaries .sample none sampleStale = .ok db' ∧ Rebuilt .sample sampleStale db' := by
  obtain ⟨hraises, hrebuilt⟩ := startup_rebuilds
    (show integrityErrors .sample sampleStale = .ok [] by decide +kernel) (by decide +kernel) (fun row hr e he => by
      obtain rfl := List.mem_singleton.1 (show row ∈ [(⟨5, -1, py "["⟩ : FrontierRow)] from hr)
      have hloads : pyLoads .sample (py "[") = .error .jsonDecodeError := by decide +kernel
      exact Except.error.inj (he.symm.trans hloads))
  cases hensure : ensureBoundaries .sample none sampleStale with
  | error e =>
    obtain ⟨row, hr, -⟩ := hraises.1 ⟨e, hensure⟩
    cases hr
  | ok db' => exact ⟨db', rfl, hrebuilt db' hensure⟩

/-- A registry with one entry, the tail of whose frontier ends with a space. -/
def sampleSpaced : Db := { sampleGrown with
  frontier := sampleGrown.frontier.map (f := fun row => { row with tail := row.tail ++ py " " })
    fun _ => rfl }

set_option maxRecDepth 10000 in
/-- A frontier in another encoding than the one appends write is left as it is. -/
theorem startup_keepsEncoding : integrityErrors .sample sampleSpaced = .ok [] ∧
    sampleSpaced.boundaries = sampleGrown.boundaries ∧ sampleSpaced.log = sampleGrown.log ∧
    Written .sample sampleGrown ∧
    ensureBoundaries .sample none sampleSpaced = .ok sampleSpaced ∧
    sampleSpaced.frontier ≠ sampleGrown.frontier := by
  have hfresh : Written .sample sampleConn.disk :=
    .fresh (by decide +kernel) (by decide +kernel) (by decide +kernel)
  have hwritten : Written .sample sampleGrown := by
    unfold sampleGrown sampleAppend
    exact hfresh.perform _ _ _ _
  exact ⟨by decide +kernel, rfl, rfl, hwritten, by decide +kernel, by decide +kernel⟩

end SkillRegistry
