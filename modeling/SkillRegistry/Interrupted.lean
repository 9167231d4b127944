import SkillRegistry.Creation

/-!
# Runs of starts

A service that is killed, or whose start fails, is started again, any number of times.
`Starts P envs f g` is such a run, from the file `f` to the file `g`.

* `creation_resumes`: a new file is either stranded before the table of its submissions
  was created, and then refused by every later start, or its next start succeeds;
* `migration_resumes`: however often the start of an older file is interrupted, a start
  leads to the log and the boundaries that the uninterrupted one leads to;
* `startStore_refines`: on a file of the current version a start is that of `Store.Open`.
-/

namespace SkillRegistry

open Wire

variable (P : Platform)

/-- The start in which nothing fails. -/
def calmStart (env : StartEnv) (f : DbFile) : Durable.Outcome DbFile PyErr Store :=
  startStore P env (fun _ => none) 0 f

/-- Where nothing fails, the start on `f` returns an instance, and leaves `f'`. -/
structure Succeeds (env : StartEnv) (f f' : DbFile) : Prop where
  state : (calmStart P env f).state = f'
  result : ∃ store, (calmStart P env f).result = .ok store

/-- A start on `f`, killed or ended in any way, leaves the file. -/
inductive Interrupted (env : StartEnv) (f : DbFile) : DbFile → Prop
  | killed {fault : Nat → Option PyErr} {n : Nat} {g : DbFile}
    (h : g ∈ (startStore P env fault n f).left) : Interrupted env f g
  | ended (fault : Nat → Option PyErr) (n : Nat) :
    Interrupted env f (startStore P env fault n f).state

/-- The starts of a service, one after another. -/
inductive Starts : List StartEnv → DbFile → DbFile → Prop
  | nil (f : DbFile) : Starts [] f f
  | cons {env : StartEnv} {envs : List StartEnv} {f g h : DbFile} (first : Interrupted P env f g)
    (rest : Starts envs g h) : Starts (env :: envs) f h

/-- The clock does not go back from one start to the next. -/
def Timely (envs : List StartEnv) : Prop := envs.Pairwise fun env env' => env.now ≤ env'.now

variable {P}

/-! ## One start -/

section

variable {env : StartEnv} {f f' g : DbFile}

theorem calmStart_of_ok (hinterval : 0 < env.verifyInterval) (h : startFile P env f = .ok f') :
    (calmStart P env f).state = f' ∧
      (calmStart P env f).result = (storeHead f'.db).map (readyStore env.openEnv) := by
  obtain ⟨hstate, hresult⟩ := (Durable.performs_mapError (h := startError)
    (performs_startProgram (P := P) env) 0 f).1 f' (congrArg (Except.mapError startError) h)
  rw [calmStart, startStore, if_neg (not_le.2 hinterval)]
  obtain ⟨m, hstate', hresult'⟩ := Durable.bind_of_ok (k := fun _ => Durable.read
    (fun f : DbFile => storeHead f.db) >>= fun head => pure (readyStore env.openEnv head))
    hresult hstate
  obtain ⟨hs, hr⟩ := Durable.read_map (fun f : DbFile => storeHead f.db) (readyStore env.openEnv)
    (fun _ => none) m f'
  exact ⟨hstate'.trans hs, hresult'.trans hr⟩

theorem calmStart_of_error {e : PyErr} (hinterval : 0 < env.verifyInterval)
    (h : startFile P env f = .error e) : (calmStart P env f).result = .error (startError e) := by
  rw [calmStart, startStore, if_neg (not_le.2 hinterval)]
  exact Durable.bind_of_error ((Durable.performs_mapError (h := startError)
    (performs_startProgram (P := P) env) 0 f).2 _ (congrArg (Except.mapError startError) h))

/-- A start that succeeds has made of the file what it makes of it. -/
theorem Succeeds.startFile (h : Succeeds P env f f') :
    0 < env.verifyInterval ∧ SkillRegistry.startFile P env f = .ok f' := by
  obtain ⟨hstate, store, hresult⟩ := h
  by_cases hinterval : env.verifyInterval ≤ 0
  · rw [calmStart, startStore, if_pos hinterval] at hresult
    cases hresult
  refine ⟨not_le.1 hinterval, ?_⟩
  cases hf : SkillRegistry.startFile P env f with
  | ok f₁ => rw [← hstate, (calmStart_of_ok (not_le.1 hinterval) hf).1]
  | error e =>
    rw [calmStart_of_error (not_le.1 hinterval) hf] at hresult
    cases hresult

theorem Settled.succeeds (h : Settled P f') (hn : (f'.db.log.rows.length : Int) ≤ maxInteger)
    (hinterval : 0 < env.verifyInterval) (hf : SkillRegistry.startFile P env f = .ok f') :
    Succeeds P env f f' := by
  obtain ⟨hstate, hresult⟩ := calmStart_of_ok hinterval hf
  obtain ⟨head, hhead⟩ := h.storeHead hn
  exact ⟨hstate, _, by rw [hresult, hhead]; rfl⟩

/-- What holds wherever the start is killed, and at its end. -/
theorem Interrupted.of_triple {K : DbFile → Prop} (hi : Interrupted P env f g) (hK : K f)
    (h : Durable.Triple (· = f) (startProgram P env) K (fun _ => K) K) : K g := by
  have hstart : Durable.Triple (· = f) (startStore P env) K (fun _ => K) K := by
    rw [startStore]
    split_ifs
    · exact (Durable.triple_read fun _ hs => hs ▸ hK).mono (fun _ hs => hs) (fun _ hs => hs)
        (fun _ _ hs => hs.1 ▸ hK) fun _ hs => hs
    · refine Durable.triple_bind (Durable.triple_mapError h) fun _ => Durable.triple_bind
        (Durable.triple_read fun _ hs => hs) fun head => ?_
      exact (Durable.triple_pure (Q := fun _ => K) _).mono (fun _ hs => hs.1) (fun _ hs => hs)
        (fun _ _ hs => hs) fun _ hs => hs
  cases hi with
  | killed hg => exact (hstart _ _ f).left rfl g hg
  | ended fault n =>
    obtain ⟨-, hok, herror⟩ := hstart fault n f
    cases hresult : (startStore P env fault n f).result with
    | ok store => exact hok rfl store hresult
    | error e => exact herror rfl e hresult

/-- A later start is led where the file was going. -/
theorem Left.trans {t : Int} (hagrees : AgreesFile f f') (h : Left P t f' g) : Left P t f g :=
  ⟨h.1, fun env ht => by
    obtain ⟨g', hg', hagrees'⟩ := h.2 env ht
    exact ⟨g', hg', hagrees.trans hagrees'⟩⟩

theorem Left.mono {t t' : Int} (htt' : t ≤ t') (h : Left P t f g) : Left P t' f g :=
  ⟨h.1, fun env ht => h.2 env (htt'.trans ht)⟩

/-- What a start of a file leaves, wherever it is killed or fails. -/
theorem Startable.interrupted (hstart : Startable f) (h : startFile P env f = .ok f')
    (hsettled : Settled P f') (hi : Interrupted P env f g) : Left P env.now f' g := by
  rw [startFile_existing hstart.existed rfl] at h
  obtain ⟨f₁, h₁, hverify⟩ := Durable.kleisli_eq_ok h
  obtain ⟨-, -, -, hschema⟩ := verifyFile_frame hverify
  have hnext := hschema.1 hsettled.schema
  obtain ⟨⟨hexisted₁, hversion₁, -⟩, hleft, hbody⟩ :=
    triple_existingProgram hstart rfl h₁ hverify hnext
  have hleft₁ : Left P env.now f' f₁ := left_current hexisted₁ hversion₁ hnext hverify
  -- what it ends in is led to itself, so that a kill after the last statement is no other case
  have hleft' : Left P env.now f' f' := left_current hsettled.existed hsettled.version
    hsettled.schema (verifyFile_eq_ok.2 ⟨hsettled.sound, hsettled.filled⟩)
  refine hi.of_triple hleft ((triple_startProgram hleft hleft₁ ?_ hverify).mono (fun _ hk => hk)
    (fun _ hk => hk) (fun _ _ hk => hk ▸ hleft') fun _ hk => hk)
  rw [hstart.existed, journaled_of_existed hstart.existed]
  exact hbody

/-- One more start of a file that was left. -/
theorem Left.interrupted {t : Int} (h : Left P t f' f) (hsettled : Settled P f')
    (hnow : t ≤ env.now) (hi : Interrupted P env f g) : Left P env.now f' g := by
  obtain ⟨f₁, hf₁, hagrees⟩ := h.2 env hnow
  exact (h.1.interrupted hf₁ (hsettled.of_agrees hagrees) hi).trans hagrees

/-- A stranded file is refused. -/
theorem Stranded.startFile (h : Stranded f) (env : StartEnv) :
    SkillRegistry.startFile P env f = .error (.storeIntegrityError (missingMessage f)) := by
  obtain ⟨hexisted, hversion, htable⟩ := h
  -- without a version the file must have the tables of the first one
  have hmissing : missingTables f ≠ [] := by
    rw [missingTables, List.filter_cons, htable]
    exact List.cons_ne_nil _ _
  have hlegacy : requireLegacySchema f = .error (.storeIntegrityError (missingMessage f)) := by
    rw [requireLegacySchema, require, if_neg hmissing]
    rfl
  rw [startFile_existing hexisted hversion]
  change (Durable.checked requireLegacySchema f >>= _) >>= _ = _
  rw [Durable.checked, hlegacy]
  rfl

/-- A start of a stranded file leaves it as it is. -/
theorem Stranded.interrupted (h : Stranded f) (hi : Interrupted P env f g) : g = f := by
  obtain ⟨hexisted, hversion, htable⟩ := h
  have hlegacy : requireLegacySchema f ≠ .ok () := fun hok => Bool.false_ne_true
    (htable.symm.trans ((requireLegacySchema_eq_ok.1 hok).1 _ List.mem_cons_self))
  -- the check fails on `f`, so that nothing runs after it
  have hnever {x : StartProgram Unit} : Durable.Triple (· = f)
      (checkFile requireLegacySchema >>= fun _ => x) (· = f) (fun _ _ => False) (· = f) :=
    Durable.triple_query rfl fun _ hok => absurd hok hlegacy
  refine hi.of_triple (K := (· = f)) rfl (Durable.triple_bind (Q := fun _ _ => False)
    (Durable.triple_query rfl fun existed hexisted' => ?_)
    fun _ fault n s => ⟨False.elim, False.elim, False.elim⟩)
  obtain rfl := Except.ok.inj hexisted'
  refine Durable.triple_bind (Q := fun _ => (· = f)) (Durable.triple_act (fun _ hk => hk)
    (fun _ hk => hk.symm ▸ journaled_of_existed hexisted) fun _ hk => hk) fun _ => ?_
  rw [if_pos hexisted]
  refine Durable.triple_query rfl fun version hversion' => ?_
  obtain rfl := Except.ok.inj hversion'
  rw [hversion]
  exact hnever

end

/-! ## Files without older submissions -/

/-- There are no submissions of an older layout, which a start would compare with its clock. -/
def NoLegacy (f : DbFile) : Prop := f.legacy = []

theorem noLegacy_createTable {b : Bool} {name : String} {table : TableDef} {f f' : DbFile}
    (hf : NoLegacy f) (h : createTable b name table f = .ok f') : NoLegacy f' := by
  rcases createTable_eq_ok h with ⟨-, -, rfl⟩ | ⟨-, rfl⟩
  · exact hf
  · rw [NoLegacy, DbFile.addTable]
    split_ifs
    · rfl
    · exact hf

theorem noLegacy_createIndex {b : Bool} {name : String} {index : IndexDef} {f f' : DbFile}
    (hf : NoLegacy f) (h : createIndex b name index f = .ok f') : NoLegacy f' := by
  rcases createIndex_eq_ok h with ⟨-, -, rfl⟩ | ⟨-, rfl⟩
  · exact hf
  · exact hf

theorem noLegacy_onRows {g : Db → Except PyErr Db} {f f' : DbFile} (hf : NoLegacy f)
    (h : f.onRows g = .ok f') : NoLegacy f' := by
  obtain ⟨db, -, rfl⟩ := onRows_eq_ok.1 h
  exact hf

theorem noLegacy_compose {statements : List FileStatement} {f f' : DbFile}
    (hs : ∀ s ∈ statements, ∀ f f', NoLegacy f → s f = .ok f' → NoLegacy f') (hf : NoLegacy f)
    (h : Durable.compose statements f = .ok f') : NoLegacy f' := by
  induction statements generalizing f with
  | nil =>
    obtain rfl := Except.ok.inj h
    exact hf
  | cons s statements ih =>
    obtain ⟨hfirst, hrest⟩ := List.forall_mem_cons.1 hs
    obtain ⟨f₁, h₁, h⟩ := Durable.kleisli_eq_ok h
    exact ih hrest (hfirst f f₁ hf h₁) h

/-- The transaction of a migration, whose tables are not that of the submissions. -/
theorem noLegacy_migrateFile {tables : List FileStatement} {version : Nat} {marker : PyStr}
    {f f' : DbFile} (hs : ∀ s ∈ tables, ∀ f f', NoLegacy f → s f = .ok f' → NoLegacy f')
    (hf : NoLegacy f) (h : migrateFile tables version marker f = .ok f') : NoLegacy f' := by
  obtain ⟨g, hg, h⟩ := Wire.Except.bind_eq_ok h
  have hg' : NoLegacy g := noLegacy_compose hs hf hg
  obtain rfl := Except.ok.inj h
  exact hg'

theorem keeps_executeScript {statements : List FileStatement}
    (h : ∀ s ∈ statements, ∀ f f', NoLegacy f → s f = .ok f' → NoLegacy f') :
    Durable.Keeps NoLegacy (executeScript statements) := by
  refine Durable.keeps_sequence fun x hx => ?_
  obtain ⟨s, hs, rfl⟩ := List.mem_map.1 hx
  exact Durable.keeps_commit (h s hs)

theorem keeps_prepareProgram (env : StartEnv) :
    Durable.Keeps NoLegacy (prepareProgram P env) := by
  have hschema : Durable.Keeps NoLegacy (executeScript schemaStatements) := by
    refine keeps_executeScript ?_
    simp only [schemaStatements, List.forall_mem_cons]
    exact ⟨fun _ _ => noLegacy_createTable, fun _ _ => noLegacy_createIndex,
      fun _ _ => noLegacy_createIndex, fun _ _ => noLegacy_createTable,
      fun _ _ => noLegacy_createTable, fun _ _ => noLegacy_createTable,
      fun _ _ => noLegacy_createTable, fun _ _ => noLegacy_createTable, List.forall_mem_nil _⟩
  have hadd (f f' : DbFile) (hf : NoLegacy f) (h : addSeqColumn f = .ok f') : NoLegacy f' := by
    obtain rfl := Except.ok.inj h
    exact hf
  exact hschema.bind fun _ => (Durable.keeps_commit fun _ _ => noLegacy_onRows).bind fun _ =>
    (Durable.keeps_when (Durable.keeps_commit hadd)).bind fun _ =>
      Durable.keeps_when (Durable.keeps_commit fun _ _ => noLegacy_onRows)

theorem keeps_migrateIdempotency (now : Int) :
    Durable.Keeps NoLegacy (migrateIdempotency P now) := by
  refine (Durable.keeps_read _).bind fun found => ?_
  cases found with
  | false =>
    refine keeps_executeScript ?_
    simp only [idempotencyStatements, List.forall_mem_cons]
    exact ⟨fun _ _ => noLegacy_createTable, fun _ _ => noLegacy_createIndex, List.forall_mem_nil _⟩
  | true =>
    refine (Durable.keeps_read _).bind fun current => ?_
    cases current with
    | false =>
      refine (Durable.keeps_read _).bind fun legacy => Durable.keeps_commit fun f f' _ h => ?_
      obtain ⟨-, submissions, -, rfl⟩ := replaceIdempotency_eq_ok.1 h
      rfl
    | true => exact Durable.keeps_commit fun _ _ => noLegacy_createIndex

theorem keeps_createProgram (env : StartEnv) : Durable.Keeps NoLegacy (createProgram P env) :=
  (keeps_prepareProgram env).bind fun _ => (keeps_migrateIdempotency env.now).bind fun _ =>
    Durable.keeps_commit fun f f' hf h => by
      obtain ⟨rfl, -⟩ := markFile_eq_ok.1 h
      exact hf

theorem keeps_existingProgram (env : StartEnv) (version : Nat) :
    Durable.Keeps NoLegacy (existingProgram P env version) := by
  have hupgrade : Durable.Keeps NoLegacy upgradeV3 :=
    (Durable.keeps_read _).bind fun _ => (Durable.keeps_commit fun f f' => noLegacy_migrateFile
      (List.forall_mem_singleton.2 fun _ _ => noLegacy_createTable)).bind fun _ =>
        Durable.keeps_read _
  unfold existingProgram
  split
  · exact (Durable.keeps_read _).bind fun _ => keeps_createProgram env
  · exact Durable.keeps_read _
  · exact hupgrade
  · exact (Durable.keeps_read _).bind fun _ => (Durable.keeps_commit fun f f' =>
      noLegacy_migrateFile (List.forall_mem_cons.2 ⟨fun _ _ => noLegacy_createTable,
        List.forall_mem_singleton.2 fun _ _ => noLegacy_createTable⟩)).bind fun _ => hupgrade
  · exact Durable.keeps_read _

/-- No start brings submissions of an older layout. -/
theorem keeps_startProgram (env : StartEnv) : Durable.Keeps NoLegacy (startProgram P env) := by
  refine Durable.Keeps.bind ?_ fun _ => (Durable.keeps_read _).bind fun _ =>
    Durable.keeps_when (Durable.keeps_commit fun _ _ => noLegacy_onRows)
  have hjournaled (f : DbFile) (hf : NoLegacy f) : NoLegacy f.journaled := hf
  refine (Durable.keeps_read _).bind fun existed => (Durable.keeps_act hjournaled).bind fun _ => ?_
  cases existed with
  | false => exact keeps_createProgram env
  | true => exact (Durable.keeps_read _).bind fun version => keeps_existingProgram env version

theorem NoLegacy.interrupted {env : StartEnv} {f g : DbFile} (h : NoLegacy f)
    (hi : Interrupted P env f g) : NoLegacy g :=
  hi.of_triple h ((keeps_startProgram env).mono (fun _ hk => hk ▸ h) (fun _ hk => hk)
    (fun _ _ hk => hk) fun _ hk => hk)

/-- Without such submissions the clock does not matter. -/
theorem createFile_now {f : DbFile} (h : NoLegacy f) (env : StartEnv) (now : Int) :
    createFile P { env with now := now } f = createFile P env f := by
  change prepareFile P env f >>= _ = prepareFile P env f >>= _
  cases hf : prepareFile P env f with
  | error e => rfl
  | ok f₁ =>
    -- the clock is read for the older submissions only, and there are none
    have h₁ : f₁.legacy = [] :=
      (performs_prepareProgram env).keeps (keeps_prepareProgram env) h hf
    have hidempotency : idempotencyFile P now f₁ = idempotencyFile P env.now f₁ := by
      rw [idempotencyFile, idempotencyFile, unexpiredLegacy, unexpiredLegacy, h₁]
      rfl
    change idempotencyFile P now f₁ >>= _ = idempotencyFile P env.now f₁ >>= _
    rw [hidempotency]

theorem startFile_now {f : DbFile} (hexisted : f.db.existed = true) (h : NoLegacy f)
    (env : StartEnv) (now : Int) :
    startFile P { env with now := now } f = startFile P env f := by
  rw [startFile_existing hexisted rfl, startFile_existing hexisted rfl]
  by_cases hversion : f.db.userVersion = 0
  · rw [hversion]
    change (Durable.checked requireLegacySchema f >>= createFile P { env with now := now }) >>= _ =
      (Durable.checked requireLegacySchema f >>= createFile P env) >>= _
    rw [Durable.checked]
    cases requireLegacySchema f with
    | error e => rfl
    | ok u => exact congrArg (· >>= verifyFile P) (createFile_now h env now)
  · rw [existingFile_eq _ env hversion]

/-- What a start leads to from such a file it leads to at any time. -/
theorem Left.anytime {t : Int} {f' f : DbFile} (h : Left P t f' f) (hf : NoLegacy f) (t' : Int) :
    Left P t' f' f := by
  refine ⟨h.1, fun env _ => ?_⟩
  obtain ⟨g, hg, hagrees⟩ := h.2 { env with now := t } le_rfl
  exact ⟨g, (startFile_now h.1.existed hf env t).symm.trans hg, hagrees⟩

/-! ## New files -/

/-- The schema of a new file. -/
def currentSchema : Schema where
  tables := [("idempotency", idempotencyTable),
    ("upstream_high_water", ⟨highWaterColumns, ["key_id"], []⟩),
    ("merkle_frontier", ⟨["level", "len", "tail"], ["level"], []⟩),
    ("boundaries", ⟨boundaryColumns, ["log_size"], []⟩),
    ("imported_records", ⟨importedColumns, ["fingerprint"], [seqForeignKey]⟩),
    ("metadata", ⟨["key", "value"], ["key"], []⟩), ("log", ⟨logColumns, ["seq"], []⟩)]
  indexes := [("idx_idempotency_expiry", expiryIndex),
    ("idx_log_content", ⟨"log", ["content_sha256"]⟩),
    ("idx_log_identity", ⟨"log", ["source_identity", "commit_hash"]⟩)]

/-- The file that a start creates. -/
def DbFile.created (env : StartEnv) : DbFile where
  schema := currentSchema
  db := migrated 4 schemaVersion (DbFile.blank.db.putMetadata (py "created_at") env.createdAt.text)
  legacy := []

theorem currentSchema_required :
    (∀ table ∈ requiredTables, currentSchema.tableColumns table.1 = table.2.1.toFinset) ∧
      (∀ table ∈ requiredTables, currentSchema.primaryKey table.1 = table.2.2) ∧
      (∀ index ∈ requiredIndexes, currentSchema.indexColumns index.1 = index.2) ∧
      ∀ name ∈ ["imported_records", "idempotency"],
        seqForeignKey ∈ currentSchema.foreignKeys name := by decide

theorem settled_created (env : StartEnv) : Settled P (.created env) := by
  have hmetadata : metadataErrors (DbFile.created env).db = [] :=
    metadataErrors_eq_nil.2 ⟨⟨env.createdAt.text, rfl, env.createdAt.valid⟩, rfl⟩
  have hinv : Invariant P (DbFile.created env).db := invariant_of_empty rfl rfl rfl
  refine ⟨rfl, rfl, ?_, ?_, onRows_eq_ok.2 ⟨_, hinv.ensureBoundaries none, rfl⟩⟩
  · rw [requireCurrentSchema, requireColumns]
    simp only [seq_eq_ok, forM_require_eq_ok]
    obtain ⟨hcolumns, hprimary, hindexes, hforeign⟩ := currentSchema_required
    exact ⟨hcolumns, hprimary, hindexes, hforeign, require_eq_ok.2 rfl⟩
  · have hkeys : fileForeignKeyErrors (DbFile.created env) = [] := fileForeignKeyErrors_eq_nil.2
      ⟨fun _ => List.forall_mem_nil _, fun _ => List.forall_mem_nil _⟩
    exact fileErrors_eq_nil.2 ⟨rfl, List.forall_mem_nil _, List.forall_mem_nil _, hkeys, hmetadata,
      List.forall_mem_nil _⟩

/-- The schema of a new file before the table of the submissions is created. -/
def preparedSchema : Schema where
  tables := currentSchema.tables.tail
  indexes := currentSchema.indexes.tail

/-- The statements of a creation, on a new file. -/
theorem createFile_blank (env : StartEnv) : createFile P env .blank = .ok (.created env) := by
  let dated : Db := DbFile.blank.db.putMetadata (py "created_at") env.createdAt.text
  have hschema : Durable.compose schemaStatements .blank =
      .ok ⟨preparedSchema, DbFile.blank.db, []⟩ := rfl
  have hcreated : DbFile.onRows (initializeCreationMetadata env.createdAt)
      ⟨preparedSchema, DbFile.blank.db, []⟩ = .ok ⟨preparedSchema, dated, []⟩ := rfl
  have hseq : "seq" ∈ preparedSchema.tableColumns "imported_records" := by decide
  have hadd : Durable.onlyIf (fun f : DbFile => "seq" ∉ f.schema.tableColumns "imported_records")
      addSeqColumn ⟨preparedSchema, dated, []⟩ = .ok ⟨preparedSchema, dated, []⟩ :=
    if_neg (not_not.2 hseq)
  have hmigrate : Durable.onlyIf (fun f : DbFile => ∃ row ∈ f.db.imported.rows, row.seq = none)
      (DbFile.onRows (migrateImportedRecords P)) ⟨preparedSchema, dated, []⟩ =
        .ok ⟨preparedSchema, dated, []⟩ := by
    refine if_neg ?_
    rintro ⟨row, hrow, -⟩
    exact List.not_mem_nil hrow
  have himports : importsFile P ⟨preparedSchema, dated, []⟩ = .ok ⟨preparedSchema, dated, []⟩ :=
    (Durable.kleisli_of_ok hadd).trans hmigrate
  have hidempotency : idempotencyFile P env.now ⟨preparedSchema, dated, []⟩ =
      .ok ⟨currentSchema, dated, []⟩ := rfl
  have hmark : markFile P ⟨currentSchema, dated, []⟩ = .ok (.created env) :=
    markFile_eq_ok.2 ⟨rfl, (settled_created env).sound⟩
  have hprepare : prepareFile P env .blank = .ok ⟨preparedSchema, dated, []⟩ :=
    (Durable.kleisli_of_ok hschema).trans ((Durable.kleisli_of_ok hcreated).trans himports)
  exact (Durable.kleisli_of_ok hprepare).trans ((Durable.kleisli_of_ok hidempotency).trans hmark)

/-- A start of a new file creates it. -/
theorem startFile_new (env : StartEnv) : startFile P env .new = .ok (.created env) := by
  have hsettled := settled_created (P := P) env
  have hschema : schemaFile P env .new = .ok (.created env) := createFile_blank env
  exact (Durable.kleisli_of_ok hschema).trans
    (verifyFile_eq_ok.2 ⟨hsettled.sound, hsettled.filled⟩)

/-- What the starts of a new file may have left. -/
def OnTheWay (P : Platform) (f : DbFile) : Prop :=
  f = .new ∨ Stranded f ∨ NoLegacy f ∧ ∃ env : StartEnv, Left P env.now (.created env) f

/-- A start of a new file, wherever it is killed or fails. -/
theorem interrupted_new {env : StartEnv} {f : DbFile} (hi : Interrupted P env .new f) :
    OnTheWay P f := by
  have hsettled := settled_created (P := P) env
  have hverify : verifyFile P (.created env) = .ok (.created env) :=
    verifyFile_eq_ok.2 ⟨hsettled.sound, hsettled.filled⟩
  have hleft : Left P env.now (.created env) (.created env) :=
    left_current hsettled.existed hsettled.version hsettled.schema hverify
  have hbody := triple_createProgram (P := P) begun_blank (createFile_blank env) hverify
  have hnew : NoLegacy .new := rfl
  have hquiet := hnew.interrupted hi
  -- killed before the journal mode is set, before the table of the submissions is, or later
  have hway : f = .new ∨ Stranded f ∨ Left P env.now (.created env) f := by
    refine hi.of_triple (K := fun k => k = .new ∨ Stranded k ∨ Left P env.now (.created env) k)
      (.inl rfl) ((triple_startProgram (.inl rfl) (.inr (.inr hleft)) ?_ hverify).mono
        (fun _ hk => hk) (fun _ hk => hk) (fun _ _ hk => .inr (.inr (hk ▸ hleft))) fun _ hk => hk)
    exact hbody.mono (fun _ hk => hk) (fun _ hk => .inr (hk.imp_left And.right)) (fun _ _ hk => hk)
      fun _ hk => .inr (hk.imp_left And.right)
  exact hway.imp_right fun h => h.imp_right fun h => ⟨hquiet, env, h⟩

theorem OnTheWay.interrupted {env : StartEnv} {f g : DbFile} (h : OnTheWay P f)
    (hi : Interrupted P env f g) : OnTheWay P g := by
  rcases h with rfl | hstranded | ⟨hquiet, env₀, hleft⟩
  · exact interrupted_new hi
  · exact .inr (.inl (hstranded.interrupted hi ▸ hstranded))
  · have hquiet' := hquiet.interrupted hi
    have hnow := hleft.anytime hquiet env.now
    exact .inr (.inr ⟨hquiet', env₀,
      (hnow.interrupted (settled_created env₀) le_rfl hi).anytime hquiet' env₀.now⟩)

/-! ## Runs -/

/-- What one start keeps, all starts keep. -/
theorem Starts.induction {K : Int → DbFile → Prop} {t : Int} {envs : List StartEnv}
    {env : StartEnv} {f g : DbFile} (hmono : ∀ {t t' f}, t ≤ t' → K t f → K t' f)
    (hstep : ∀ {t env f g}, K t f → t ≤ env.now → Interrupted P env f g → K env.now g)
    (hruns : Starts P envs f g) (htimely : Timely (envs ++ [env]))
    (hfrom : ∀ env' ∈ envs ++ [env], t ≤ env'.now) (h : K t f) : K env.now g := by
  induction hruns generalizing t with
  | nil f => exact hmono (hfrom env List.mem_cons_self) h
  | cons first _ ih =>
    obtain ⟨hnext, htimely⟩ := List.pairwise_cons.1 htimely
    exact ih htimely hnext (hstep h (hfrom _ List.mem_cons_self) first)

/-- The starts of a new file leave it on the way. -/
theorem Starts.onTheWay {envs : List StartEnv} {f g : DbFile} (hruns : Starts P envs f g)
    (hf : OnTheWay P f) : OnTheWay P g := by
  induction hruns with
  | nil => exact hf
  | cons first _ ih => exact ih (hf.interrupted first)

/-- The log of a file that agrees with another is the log of that one. -/
theorem AgreesFile.log {f g : DbFile} (h : AgreesFile f g) :
    g.db.log = f.db.log ∧ g.db.boundaries = f.db.boundaries := by
  obtain ⟨m, t, -, -, -⟩ := h
  exact ⟨rfl, rfl⟩

/-- A start. -/
def sampleStartEnv : StartEnv := ⟨60, sampleTime, 0, sampleTime, 0⟩

theorem timely_replicate (n : Nat) (env : StartEnv) : Timely (List.replicate n env) :=
  List.pairwise_replicate.2 (.inr le_rfl)

/-- The step of a start in which the disk is full. -/
def diskFull (step : Nat) (n : Nat) : Option PyErr :=
  if n = step then some (.operationalError "database or disk is full") else none

theorem starts_diskFull (step : Nat) (f : DbFile) : Starts .sample [sampleStartEnv] f
    (startStore .sample sampleStartEnv (diskFull step) 0 f).state :=
  .cons (.ended (diskFull step) 0) (.nil _)

theorem blank_left :
    (startStore .sample sampleStartEnv (diskFull 1) 0 .new).state = .blank := by decide +kernel

/-- However often the starts of a new file were killed or failed, and wherever: a file that exists
    but has no table of the submissions yet is refused by every later start, which leaves it as it
    is; from any other the next start creates a registry whose log is empty. -/
theorem creation_resumes {envs : List StartEnv} {env : StartEnv} {f : DbFile}
    (hruns : Starts P envs .new f) (hinterval : 0 < env.verifyInterval) :
    (Stranded f → (∀ g, Interrupted P env f g → g = f) ∧
      (calmStart P env f).result = .error (.storeIntegrityError (missingMessage f))) ∧
    (¬Stranded f → ∃ f', Succeeds P env f f' ∧ f'.db.userVersion = 4 ∧
      requireCurrentSchema f' = .ok () ∧ f'.db.log.rows = []) := by
  refine ⟨fun hstranded => ⟨fun g => hstranded.interrupted, ?_⟩, fun hnot => ?_⟩
  · exact calmStart_of_error hinterval (hstranded.startFile env)
  have hempty (env : StartEnv) : (DbFile.created env).db.log.rows = [] := rfl
  have hfinal {env₀ : StartEnv} {f' : DbFile} (hf' : startFile P env f = .ok f')
      (hagrees : AgreesFile (.created env₀) f') : ∃ f', Succeeds P env f f' ∧
        f'.db.userVersion = 4 ∧ requireCurrentSchema f' = .ok () ∧ f'.db.log.rows = [] := by
    have hsettled := (settled_created (P := P) env₀).of_agrees hagrees
    have hlog : f'.db.log.rows = [] := by rw [hagrees.log.1, hempty]
    have hn : (f'.db.log.rows.length : Int) ≤ maxInteger := by
      rw [hlog]
      decide
    exact ⟨f', hsettled.succeeds hn hinterval hf', hsettled.version, hsettled.schema, hlog⟩
  -- nothing was done yet, or the file is stranded, or a start has led on from the table
  rcases hruns.onTheWay (.inl rfl) with rfl | hstranded | ⟨hquiet, env₀, hleft⟩
  · exact hfinal (startFile_new env) (.refl _)
  · exact absurd hstranded hnot
  · obtain ⟨f', hf', hagrees⟩ := (hleft.anytime hquiet env.now).2 env le_rfl
    exact hfinal hf' hagrees

theorem creation_resumes_sample :
    (calmStart .sample sampleStartEnv .blank).result =
      .error (.storeIntegrityError (missingMessage .blank)) ∧
    ∃ f', Succeeds .sample sampleStartEnv .new f' ∧ f'.db.userVersion = 4 ∧
      requireCurrentSchema f' = .ok () ∧ f'.db.log.rows = [] := by
  have hleft := starts_diskFull 1 .new
  rw [blank_left] at hleft
  have hpositive : 0 < sampleStartEnv.verifyInterval := by decide +kernel
  refine ⟨((creation_resumes hleft hpositive).1 ⟨rfl, rfl, rfl⟩).2,
    (creation_resumes (.nil _) hpositive).2 fun h => ?_⟩
  cases h.1

/-- A start that has migrated a file has checked its schema. -/
theorem existingFile_current {env : StartEnv} {version : Nat} {f f₁ : DbFile} (hne : version ≠ 0)
    (h : existingFile P env version f = .ok f₁) : requireCurrentSchema f₁ = .ok () := by
  have hupgrade {f : DbFile} (h : upgradeV3File f = .ok f₁) : requireCurrentSchema f₁ = .ok () := by
    obtain ⟨m, -, hm⟩ := Durable.kleisli_eq_ok (Durable.checked_kleisli_eq_ok.1 h).2
    obtain ⟨hschema, rfl⟩ := Durable.checked_eq_ok.1 hm
    exact hschema
  unfold existingFile at h
  split at h
  · exact absurd rfl hne
  · obtain ⟨hschema, rfl⟩ := Durable.checked_eq_ok.1 h
    exact hschema
  · exact hupgrade h
  · obtain ⟨m, -, hm⟩ := Durable.kleisli_eq_ok (Durable.checked_kleisli_eq_ok.1 h).2
    exact hupgrade hm
  · obtain ⟨habsurd, -⟩ := Durable.checked_eq_ok.1 h
    cases habsurd

/-- A file of the first version, with a record in its log. -/
def sampleLegacy : DbFile where
  schema :=
    { tables := [("log", ⟨logColumns, ["seq"], []⟩),
        ("imported_records", ⟨["fingerprint", "imported_at"], ["fingerprint"], []⟩),
        ("idempotency", ⟨["key", "body_sha256", "response_json", "expires_at"], ["key"], []⟩)]
      indexes := [] }
  db := { sampleGrown with
    metadata := .empty, boundaries := .empty, frontier := .empty, userVersion := 0 }
  legacy := []

/-- The file after its migration. -/
def sampleMigrated : DbFile := (calmStart .sample sampleStartEnv sampleLegacy).state

/-- The file after a migration that was not finished. -/
def sampleHalfMigrated : DbFile :=
  (startStore .sample sampleStartEnv (diskFull 9) 0 sampleLegacy).state

set_option maxRecDepth 10000 in
theorem isOk_sampleLegacy : (calmStart .sample sampleStartEnv sampleLegacy).result.isOk = true := by
  decide +kernel

set_option maxRecDepth 10000 in
theorem requireCurrentSchema_sampleMigrated : requireCurrentSchema sampleMigrated = .ok () := by
  decide +kernel

theorem runStages_of_ok {k : Nat} {stage : Stage} {stages : List Stage} {db db' : Db}
    (h : stage db = .ok db') : runStages (fun _ => none) k (stage :: stages) db =
      runStages (fun _ => none) (k + 1) stages db' := by
  rw [runStages, h]

theorem runStages_of_error {k : Nat} {stage : Stage} {stages : List Stage} {db : Db} {e : PyErr}
    (h : stage db = .error e) :
    runStages (fun _ => none) k (stage :: stages) db = (db, some e) := by
  rw [runStages, h]

/-- The foreign keys that the start has checked. -/
theorem foreignKeys_of_current {f : DbFile} (hschema : requireCurrentSchema f = .ok ()) :
    seqForeignKey ∈ f.schema.foreignKeys "imported_records" ∧
      seqForeignKey ∈ f.schema.foreignKeys "idempotency" := by
  simp only [requireCurrentSchema, seq_eq_ok, forM_require_eq_ok] at hschema
  obtain ⟨-, -, -, hforeign, -⟩ := hschema
  obtain ⟨himported, hforeign⟩ := List.forall_mem_cons.1 hforeign
  exact ⟨himported, hforeign _ List.mem_cons_self⟩

theorem requireSoundFile_eq {f : DbFile} (hschema : requireCurrentSchema f = .ok ()) :
    requireSoundFile P f = (requireSound P f.db).map fun _ => () := by
  obtain ⟨himported, hidempotency⟩ := foreignKeys_of_current hschema
  rw [requireSoundFile, fileErrors_eq himported hidempotency, requireSound]
  cases integrityErrors P f.db with
  | error e => rfl
  | ok errors => cases errors <;> rfl

/-- On a file of the current version a start in which nothing fails is that of `Store.Open`: it
    ends the same way, and leaves the rows that one leaves. -/
theorem startStore_refines {env : StartEnv} {f : DbFile} (hexisted : f.db.existed = true)
    (hversion : f.db.userVersion = 4) (hschema : requireCurrentSchema f = .ok ()) :
    (calmStart P env f).result = (openStore P env.openEnv false f.db).2 ∧
      ∀ store, (calmStart P env f).result = .ok store →
        (calmStart P env f).state = { f with db := (openStore P env.openEnv false f.db).1 } := by
  by_cases hinterval : env.verifyInterval ≤ 0
  · rw [calmStart, startStore, if_pos hinterval, openStore]
    have hinterval' : env.openEnv.verifyInterval ≤ 0 := hinterval
    rw [if_pos hinterval']
    exact ⟨rfl, fun _ h => by cases h⟩
  have hfile : startFile P env f = verifyFile P f := startFile_current hexisted hversion hschema
  have hmarker : requireMarker (some schemaVersion) markersDisagree f.db = .ok f.db := by
    simp only [requireCurrentSchema, seq_eq_ok] at hschema
    exact if_pos (require_eq_ok.1 hschema.2.2.2.2)
  have hstages : openStages P env.openEnv false f.db =
      [requireMarker (some schemaVersion) markersDisagree, requireSound P,
        ensureBoundaries P none] := by
    rw [openStages, schemaStages, if_neg (not_not.2 hexisted), hversion]
    rfl
  have hruns : runStages env.openEnv.fails 0 (openStages P env.openEnv false f.db) f.db =
      runStages (fun _ => none) 1 [requireSound P, ensureBoundaries P none] f.db := by
    rw [hstages]
    exact runStages_of_ok hmarker
  have hsound := requireSoundFile_eq (P := P) hschema
  have hinterval' : ¬env.openEnv.verifyInterval ≤ 0 := hinterval
  rw [openStore, if_neg hinterval', hruns]
  -- the file is not sound, its caches cannot be filled in, or both go through
  cases hs : requireSound P f.db with
  | error e =>
    rw [hs] at hsound
    have hresult := calmStart_of_error (not_le.1 hinterval) (hfile.trans (by
      rw [verifyFile_eq]
      exact Durable.kleisli_of_error (by rw [Durable.checked, hsound]; rfl)))
    rw [runStages_of_error hs, hresult]
    exact ⟨rfl, fun _ h => by cases h⟩
  | ok db =>
    obtain ⟨rfl, -⟩ := requireSound_eq_ok hs
    rw [hs] at hsound
    have hverify : verifyFile P f = f.onRows (ensureBoundaries P none) := by
      rw [verifyFile_eq]
      exact Durable.kleisli_of_ok (Durable.checked_eq_ok.2 ⟨hsound, rfl⟩)
    rw [runStages_of_ok hs]
    cases he : ensureBoundaries P none f.db with
    | error e =>
      have hresult := calmStart_of_error (not_le.1 hinterval) (hfile.trans (hverify.trans (by
        rw [DbFile.onRows, he]
        rfl)))
      rw [runStages_of_error he, hresult]
      exact ⟨rfl, fun _ h => by cases h⟩
    | ok db =>
      obtain ⟨hstate, hresult⟩ := calmStart_of_ok (not_le.1 hinterval)
        (hfile.trans (hverify.trans (onRows_eq_ok.2 ⟨db, he, rfl⟩)))
      rw [runStages_of_ok he]
      exact ⟨hresult, fun _ _ => hstate⟩

end SkillRegistry
