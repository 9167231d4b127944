import SkillRegistry.App.Answered
import SkillRegistry.Concurrent
import SkillRegistry.Readiness
import SkillRegistry.Run
import SkillRegistry.Store.Growth
import SkillRegistry.Store.Health

/-!
# Starting beside other writers

A start reads the log, the ledgers, the caches and the head by statements that each see a
database of their own, while other connections submit records. What an earlier statement has
seen is then a prefix of what a later one sees, and the start must not take the difference for
a corrupted store.

* `Submits` is a submission or an append of another connection, and `Submitted` any number of
  them: they keep a store valid (`Submitted.valid`);
* `StoreRead.integrityErrorsLocked` and `StoreRead.ensureBoundariesLocked` are the two checks of a
  start, statement by statement, and `StoreRead.startCurrent` the start of a store of the current
  schema; without other writers they are the checks of one database (`still_startCurrent`);
* `start_raisesNoAlarm`: a start on a valid store succeeds, or refuses because at least four
  entries were committed while it ran, and it changes nothing;
* `healthPass_raisesNoAlarm`: a pass of the background verifier ends ready.
-/

namespace SkillRegistry

open Wire Merkle

variable (P : Platform)

/-! ## Other writers -/

/-- An append or a submission, at a time of the clock. -/
def Call.Dated : Call → Prop
  | .append _ createdAt | .appendIdempotent _ _ _ _ createdAt _ _ => isTimestamp createdAt = true
  | .appendImports .. | .appendUpstreamImport .. => False

/-- What another connection commits: an append or a submission, with its clean-up of what is
    expired. -/
inductive Submits (db : Db) : Db → Prop
  | mk {call : Call} {r : Response} {published : Option LogEntry} {db' : Db} (dated : call.Dated)
      (checked : call.check = .ok ()) (performs : Performs P call db r published db') :
      Submits db db'

/-- What other connections commit in a row. -/
def Submitted : Db → Db → Prop := Relation.ReflTransGen (Submits P)

variable {P}

/-- An append of a record at a time of the clock keeps a store valid. -/
theorem ValidStore.appended {db db' : Db} {record : Record} {createdAt : PyStr} {body root : Bytes}
    {frontier : List (Summary Bytes)} {entry : LogEntry} (h : ValidStore P db)
    (hdated : isTimestamp createdAt = true)
    (ha : Appended P db record.members createdAt body frontier root entry db') :
    ValidStore P db' := by
  have hi : Invariant P db' := ha.invariant record.sorted record.numeral h.toInvariant
  have hrows := ha.row_eq
  have hlog : db.log.rows <+: db'.log.rows := hrows ▸ List.prefix_append _ _
  obtain ⟨hmetadata, hidempotency, himported, hhighWater⟩ : db'.metadata = db.metadata ∧
      db'.idempotency = db.idempotency ∧ db'.imported = db.imported ∧
        db'.highWater = db.highWater := by
    rw [ha.result]
    exact ⟨rfl, rfl, rfl, rfl⟩
  refine ⟨hi, h.verified.grow hlog hi.log (fun row hr => ?_) hmetadata
    (fun row hr => .inl (hidempotency ▸ hr)) (fun row hr => .inl (himported ▸ hr))
    fun row hr => .inl (hhighWater ▸ hr)⟩
  rw [hrows, List.mem_append, List.mem_singleton] at hr
  rcases hr with hr | rfl
  · exact .inl hr
  · exact .inr hdated

/-- Other submissions keep a store valid when they are sound. -/
theorem ValidStore.withSubmissions {db : Db} (h : ValidStore P db)
    {t : Table IdempotencyRow.primaryKey}
    (ht : ∀ row ∈ t.rows, row ∈ db.idempotency.rows ∨ SubmissionSound P db row) :
    ValidStore P { db with idempotency := t } := by
  have hlog : db.log.rows <+: { db with idempotency := t }.log.rows := List.prefix_rfl
  exact ⟨h.toInvariant.congr rfl rfl rfl, h.verified.grow hlog h.log (fun _ hr => .inl hr) rfl ht
    (fun _ hr => .inl hr) fun _ hr => .inl hr⟩

/-- Removing submissions that expired keeps a store valid. -/
theorem ValidStore.pruned {db : Db} (h : ValidStore P db) (now : Int) :
    ValidStore P (db.pruned now) :=
  h.withSubmissions fun _ hr => .inl (List.mem_of_mem_filter hr)

theorem checkIdempotent_eq_ok {auditorId key bodySha256 : PyStr} {ttlSeconds : Int}
    (h : checkIdempotent auditorId key bodySha256 ttlSeconds = .ok ()) :
    auditorId ≠ [] ∧ (1 ≤ key.length ∧ key.length ≤ 256 ∧
      key.all fun c => 0x21 ≤ c.val && c.val ≤ 0x7E) ∧ hex256 bodySha256 = true := by
  unfold checkIdempotent at h
  split_ifs at h with hauditor hkey hbody
  exact ⟨hauditor, hkey, hbody⟩

/-- The submission that is recorded with an entry is accepted by the verification. -/
theorem submissionSound_submissionRow {db : Db} {auditorId key bodySha256 createdAt : PyStr}
    {entry : LogEntry} {ttlSeconds expiresAt : Int}
    (hcheck : checkIdempotent auditorId key bodySha256 ttlSeconds = .ok ())
    (hentry : entry.row createdAt ∈ db.log.rows)
    (hdumped : jsonDumps P (StoreTx.responseJson entry) = .ok (StoreTx.responseJson entry).dumps) :
    SubmissionSound P db (submissionRow auditorId key bodySha256 entry expiresAt) := by
  obtain ⟨hauditor, ⟨hpos, hlen, hkey⟩, hbody⟩ := checkIdempotent_eq_ok hcheck
  have hfind : db.log.find? entry.seq = some (entry.row createdAt) := Table.mem_rows.1 hentry
  have hloads : loadsOrNone P (StoreTx.responseJson entry).dumps =
      .ok (.obj (StoreTx.response entry)) := by
    rw [loadsOrNone, pyLoads_responseJson hdumped]
  have hseq : Dict.get? (StoreTx.response entry) (py "seq") = some (.int entry.seq) := rfl
  have hhash : Dict.get? (StoreTx.response entry) (py "entry_hash") =
      some (.str (entry.row createdAt).entryHash) := rfl
  have hkeys : Dict.keys (StoreTx.response entry) = [py "entry_hash", py "seq"] := rfl
  refine ⟨⟨_, hfind⟩, _, hloads, ?_⟩
  simp only [submissionConsistent, submissionRow, hfind, hseq, hhash, hkeys, hpos, hlen, hkey, hbody,
    hauditor, Option.getD_some, pyEqInt, ne_eq, not_false_eq_true, decide_true, Bool.and_true]

theorem Submits.valid {db db' : Db} (h : Submits P db db') (hv : ValidStore P db) :
    ValidStore P db' := by
  obtain ⟨hdated, hchecked, hperforms⟩ := h
  cases hperforms with
  | append appended => exact hv.appended hdated appended
  | replay => exact hv.pruned _
  | @submit record auditorId key bodySha256 createdAt now ttlSeconds _ db₁ body root frontier entry
      _ _ _ appended dumped =>
    have h₁ : ValidStore P db₁ := (hv.pruned now).appended hdated appended
    refine h₁.withSubmissions fun row hr => ?_
    -- the one new submission names the entry that was appended for it
    rcases Table.mem_put.1 hr with rfl | ⟨hr, -⟩
    · have hentry : entry.row createdAt ∈ db₁.log.rows := by
        rw [appended.row_eq]
        exact List.mem_append_right _ (List.mem_singleton_self _)
      exact .inr (submissionSound_submissionRow hchecked hentry dumped)
    · exact .inl hr
  | imports | importsOffered | upstream => exact hdated.elim

namespace Submitted

variable {db db' db'' : Db}

theorem trans (h : Submitted P db db') (h' : Submitted P db' db'') : Submitted P db db'' :=
  Relation.ReflTransGen.trans h h'

theorem log_prefix (h : Submitted P db db') : db.log.rows <+: db'.log.rows := by
  induction h with
  | refl => exact List.prefix_rfl
  | tail _ hw ih =>
    obtain ⟨-, -, hperforms⟩ := hw
    obtain ⟨entries, he⟩ := hperforms.log_rows
    exact ih.trans (he ▸ List.prefix_append _ _)

theorem valid (h : Submitted P db db') (hv : ValidStore P db) : ValidStore P db' := by
  induction h with
  | refl => exact hv
  | tail _ hw ih => exact hw.valid ih

theorem metadata (h : Submitted P db db') : db'.metadata = db.metadata := by
  induction h with
  | refl => rfl
  | tail _ hw ih =>
    obtain ⟨-, -, hperforms⟩ := hw
    exact hperforms.metadata.2.2.trans ih

end Submitted

/-! ## The verification, statement by statement -/

variable (P) in
/-- A submission agrees with the hash of the entry that it refers to. -/
def submissionAgrees (expected : Option PyStr) (row : IdempotencyRow) (response : Json) : Bool :=
  match response with
  | .obj response =>
    row.auditorId ≠ [] && 1 ≤ row.key.length && row.key.length ≤ 256 &&
      row.key.all (fun c => 0x21 ≤ c.val && c.val ≤ 0x7E) &&
      Dict.keys response = [py "entry_hash", py "seq"] &&
      pyEqInt P ((Dict.get? response (py "seq")).getD .null) row.seq &&
      Dict.get? response (py "entry_hash") = some (expected.elim .null .str) &&
      hex256 row.bodySha256
  | _ => false

namespace StoreRead

/-- The hash of the entry a submission refers to: of one that was walked, or else of one that
    was committed since. -/
def expectedEntryHash (walked : Table LogRow.seq) (seq : Int) : StoreRead (Option PyStr) :=
  match walked.find? seq with
  | some entry => pure (some entry.entryHash)
  | none => do
    let live ← Shared.select fun db => db.log.find? seq
    pure (live.map (·.entryHash))

variable (P) in
/-- The errors of a submission. -/
def submissionErrorsLocked (walked : Table LogRow.seq) (row : IdempotencyRow) :
    StoreRead (List String) := do
  let response ← Shared.lift (loadsOrNone P row.responseJson)
  let expected ← expectedEntryHash walked row.seq
  pure (flag (¬submissionAgrees P expected row response)
    s!"idempotency entry {pyRepr row.auditorId}/{pyRepr row.key} is inconsistent")

variable (P) in
/-- The errors of an imported record. -/
def importErrorsLocked (row : ImportedRow) : StoreRead (List String) :=
  match row.seq with
  | none => pure [s!"import fingerprint {pyRepr row.fingerprint} has no log sequence"]
  | some seq => do
    let entry ← Shared.select fun db => db.log.find? seq
    match entry with
    | none => pure [s!"import fingerprint {pyRepr row.fingerprint} is orphaned"]
    | some entry => do
      let record ← Shared.lift (loadsOrNone P entry.recordJson)
      let fingerprint ← Shared.lift (importFingerprint P record)
      pure (flag (fingerprint ≠ some row.fingerprint)
        s!"import fingerprint {pyRepr row.fingerprint} is inconsistent")

variable (P) in
/-- `_integrity_errors_on`, statement by statement. -/
def integrityErrorsLocked : StoreRead (List String) := do
  let foreignKeys ← Shared.select foreignKeyErrors
  let created ← Shared.select fun db => db.metadataValue (py "created_at")
  let schema ← Shared.select fun db => db.metadataValue (py "schema_version")
  let log ← Shared.select Db.log
  let walked ← Shared.lift (walk P 1 genesis log.rows)
  let idempotency ← Shared.select Db.idempotency
  let submissions ← Shared.collect (submissionErrorsLocked P log) idempotency.rows
  let imported ← Shared.select Db.imported
  let imports ← Shared.collect (importErrorsLocked P) imported.rows
  let highWater ← Shared.select Db.highWater
  pure (foreignKeys ++
    (flag (¬created.any isTimestamp) "service creation metadata is missing or malformed" ++
      flag (schema ≠ some schemaVersion) "database schema metadata is missing or malformed") ++
    walked ++ submissions ++ imports ++ highWater.rows.flatMap fun row =>
      flag (¬row.wellFormed) s!"upstream high-water {pyRepr row.keyId} is malformed")

/-! ## The caches, statement by statement -/

/-- The write transaction of `_ensure_boundaries`, which `begins` says the failure of: it is
    given up when the log has changed, and the round with it. -/
def backfill (begins : Option PyErr) (size : Nat) (missing : List BoundaryRow)
    (frontier : List (Summary Bytes)) (db : Db) : Except PyErr (Bool × Db) :=
  match begins with
  | some e => .error e
  | none =>
    if db.size ≠ size then .ok (false, db)
    else .ok (true, { db with
      -- INSERT OR IGNORE
      boundaries := missing.foldl (fun t row => (t.insert? row).getD t) db.boundaries
      frontier := frontierTable frontier })

variable (P) in
/-- What a round does once the log was read and recomputed. -/
def ensureCaches (begins : Option PyErr) (size : Nat) (expected : List BoundaryRow)
    (frontier : List (Summary Bytes)) : StoreRead Bool := do
  let stored ← Shared.select Db.boundaries
  if stored.rows.any fun row => row.logSize < 1 || size < row.logSize then do
    let head ← Shared.select Db.size
    if head ≠ size then pure false
    else Shared.lift (.error (.storeIntegrityError "snapshot boundary cache is inconsistent"))
  else if expected.any fun row => (stored.find? row.logSize).any (· ≠ row) then
    Shared.lift (.error
      (.storeIntegrityError "snapshot boundary cache disagrees with the committed log"))
  else do
    let agrees ← Shared.select fun db => frontierMatches P db frontier
    let agrees ← Shared.lift agrees
    let missing := expected.filter fun row => (stored.find? row.logSize).isNone
    if missing = [] ∧ agrees then pure true
    else Shared.stmt (backfill begins size missing frontier)

variable (P) in
/-- A round of `_ensure_boundaries`: whether it returns, or the log has changed. -/
def ensureRound (begins : Option PyErr) : StoreRead Bool := do
  let log ← Shared.select Db.log
  if log.rows.map (·.seq) ≠ (List.range log.rows.length).map fun i : Nat => (i : Int) + 1 then
    Shared.lift (.error (.storeIntegrityError "log sequence is not contiguous"))
  else do
    let recomputed ← Shared.lift
      (recomputePrefix P (log.rows.map fun row => (row.entryHash, row.createdAt)))
    ensureCaches P begins log.rows.length (boundaryRows recomputed.1) recomputed.2

/-- The exception of a log that changes in every round. -/
def logChanged : PyErr := .storeIntegrityError "log changed during startup boundary verification"

variable (P) in
/-- `_ensure_boundaries`, statement by statement, with the rounds it has left. -/
def ensureBoundariesLocked (begins : Nat → Option PyErr) : Nat → StoreRead Unit
  | 0 => Shared.lift (.error logChanged)
  | rounds + 1 => do
    let done ← ensureRound P (begins rounds)
    if done then pure () else ensureBoundariesLocked begins rounds

/-! ## A start, statement by statement -/

variable (P) in
/-- The checks of `Store.__init__` on a database of the current schema. -/
def verifyCurrent (begins : Nat → Option PyErr) : StoreRead Unit := do
  let marker ← Shared.select fun db => db.metadataValue (py "schema_version")
  if marker ≠ some schemaVersion then Shared.lift (.error (.storeIntegrityError markersDisagree))
  else do
    let errors ← integrityErrorsLocked P
    if errors = [] then ensureBoundariesLocked P begins 4
    else Shared.lift (.error (.storeIntegrityError ("; ".intercalate errors)))

variable (P) in
/-- `Store.__init__` on a database of the current schema, statement by statement. -/
def startCurrent (env : OpenEnv) (begins : Nat → Option PyErr) : StoreRead Store := do
  Shared.rethrow (verifyCurrent P begins) startError
  let boundary ← snapshotBoundaryLocked none
  pure (readyStore env (boundary.logSize, boundary.head))

/-! ## Without other writers -/

theorem submissionConsistent_eq (db : Db) (row : IdempotencyRow) (response : Json) :
    submissionConsistent P db row response =
      submissionAgrees P ((db.log.find? row.seq).map (·.entryHash)) row response := by
  unfold submissionConsistent submissionAgrees
  cases db.log.find? row.seq <;> rfl

theorem alone_expectedEntryHash (db : Db) (seq : Int) :
    Shared.Alone (expectedEntryHash db.log seq) db (.ok ((db.log.find? seq).map (·.entryHash))) db := by
  rw [expectedEntryHash]
  cases h : db.log.find? seq with
  | some entry => exact Shared.alone_pure _ _
  | none =>
    refine Shared.alone_select ?_
    rw [h]
    exact Shared.alone_pure _ _

theorem alone_submissionErrorsLocked (db : Db) (row : IdempotencyRow) :
    Shared.Alone (submissionErrorsLocked P db.log row) db (submissionErrors P db row) db := by
  rw [submissionErrors]
  cases h : loadsOrNone P row.responseJson with
  | error e => exact Shared.alone_check_error h
  | ok response =>
    refine Shared.alone_check h ((alone_expectedEntryHash db row.seq).andThen ?_)
    rw [← submissionConsistent_eq]
    exact Shared.alone_pure _ _

theorem alone_importErrorsLocked (db : Db) (row : ImportedRow) :
    Shared.Alone (importErrorsLocked P row) db (importErrors P db row) db := by
  rw [importErrorsLocked, importErrors]
  cases row.seq with
  | none => exact Shared.alone_pure _ _
  | some seq =>
    refine Shared.alone_select ?_
    dsimp only
    cases db.log.find? seq with
    | none => exact Shared.alone_pure _ _
    | some entry =>
      dsimp only
      cases loadsOrNone P entry.recordJson with
      | error e => exact Shared.alone_check_error rfl
      | ok record =>
        refine Shared.alone_check rfl ?_
        simp only [bind, Except.bind]
        cases importFingerprint P record with
        | error e => exact Shared.alone_check_error rfl
        | ok fingerprint => exact Shared.alone_check rfl (Shared.alone_pure _ _)

/-- Alone, the verification is the one of the database. -/
theorem alone_integrityErrorsLocked (db : Db) :
    Shared.Alone (integrityErrorsLocked P) db (integrityErrors P db) db := by
  refine Shared.alone_select (Shared.alone_select (Shared.alone_select (Shared.alone_select ?_)))
  rw [integrityErrors]
  have hsubmissions : Shared.Alone (Shared.collect (submissionErrorsLocked P db.log)
      db.idempotency.rows) db ((db.idempotency.rows.mapM (submissionErrors P db)).map
        List.flatten) db := Shared.alone_collect (alone_submissionErrorsLocked db)
  have himports : Shared.Alone (Shared.collect (importErrorsLocked P) db.imported.rows) db
      ((db.imported.rows.mapM (importErrors P db)).map List.flatten) db :=
    Shared.alone_collect (alone_importErrorsLocked db)
  cases walk P 1 genesis db.log.rows with
  | error e => exact Shared.alone_check_error rfl
  | ok walked =>
    refine Shared.alone_check rfl (Shared.alone_select ?_)
    cases hs : db.idempotency.rows.mapM (submissionErrors P db) with
    | error e =>
      rw [hs] at hsubmissions
      exact hsubmissions.raise
    | ok submissions =>
      rw [hs] at hsubmissions
      refine hsubmissions.andThen (Shared.alone_select ?_)
      cases hi : db.imported.rows.mapM (importErrors P db) with
      | error e =>
        rw [hi] at himports
        exact himports.raise
      | ok imports =>
        rw [hi] at himports
        exact himports.andThen (Shared.alone_select (Shared.alone_pure _ _))

/-- Alone, a program results in `a` and leaves what a stage makes of the database, or raises as
    the stage does. -/
def Stages {α : Type} (x : StoreRead α) (a : α) (db : Db) (r : Except PyErr Db) : Prop :=
  (∀ db', r = .ok db' → Shared.Alone x db (.ok a) db') ∧
    ∀ e, r = .error e → Shared.Alone x db (.error e) db

section

variable {α : Type} {x : StoreRead α} {a : α} {db : Db}

theorem stages_ok {db' : Db} (h : Shared.Alone x db (.ok a) db') : Stages x a db (.ok db') :=
  ⟨fun _ hdb' => Except.ok.inj hdb' ▸ h, fun _ he => (by cases he)⟩

theorem stages_error {e : PyErr} (h : Shared.Alone x db (.error e) db) :
    Stages x a db (.error e) :=
  ⟨fun _ hdb' => (by cases hdb'), fun _ he => Except.error.inj he ▸ h⟩

/-- A statement that selects goes on with what the database holds. -/
theorem stages_select {β : Type} {q : Db → β} {g : β → StoreRead α} {r : Except PyErr Db}
    (h : Stages (g (q db)) a db r) : Stages (Shared.select q >>= g) a db r :=
  ⟨fun db' hdb' => Shared.alone_select (h.1 db' hdb'),
    fun e he => Shared.alone_select (h.2 e he)⟩

/-- A check that passes is followed by the rest. -/
theorem stages_check {β : Type} {y : Except PyErr β} {b : β} {g : β → StoreRead α}
    {r : Except PyErr Db} (hy : y = .ok b) (h : Stages (g b) a db r) :
    Stages (Shared.lift y >>= g) a db r :=
  ⟨fun db' hdb' => Shared.alone_check hy (h.1 db' hdb'),
    fun e he => Shared.alone_check hy (h.2 e he)⟩

end

theorem stages_backfill {begins : Option PyErr} {db : Db} {size : Nat}
    {missing : List BoundaryRow} {frontier : List (Summary Bytes)} (hsize : db.size = size)
    (hmissing : ∀ row ∈ missing, db.boundaries.find? row.logSize = none)
    (hdistinct : missing.Pairwise fun a b => a.logSize ≠ b.logSize) :
    Stages (Shared.stmt (backfill begins size missing frontier)) true db
      (begins.elim (.ok { db with
        boundaries := missing.foldl .put db.boundaries, frontier := frontierTable frontier }) .error) := by
  cases begins with
  | some e => exact stages_error (Shared.alone_stmt_error rfl)
  | none =>
    refine stages_ok (Shared.alone_stmt ?_)
    rw [backfill, if_neg (not_not.2 hsize), Table.foldl_insert hmissing hdistinct]

theorem stages_ensureCaches {begins : Option PyErr} {db : Db} {bs : List (PyStr × PyStr × PyStr)}
    {size : Nat} {frontier : List (Summary Bytes)} (hbs : (boundaryRows bs).length = size)
    (hsize : db.size = size) :
    Stages (ensureCaches P begins size (boundaryRows bs) frontier) true db
      (reconcile P begins (boundaryRows bs) frontier db) := by
  refine stages_select ?_
  rw [reconcile, hbs]
  by_cases hrange : db.boundaries.rows.any fun row => row.logSize < 1 || size < row.logSize
  · rw [if_pos hrange, if_pos hrange]
    refine stages_select (stages_error ?_)
    rw [if_neg (not_not.2 hsize)]
    exact Shared.alone_lift _ _
  by_cases hagree : (boundaryRows bs).any fun row =>
      (db.boundaries.find? row.logSize).any (· ≠ row)
  · rw [if_neg hrange, if_neg hrange, if_pos hagree, if_pos hagree]
    exact stages_error (Shared.alone_lift _ _)
  rw [if_neg hrange, if_neg hrange, if_neg hagree, if_neg hagree]
  refine stages_select ?_
  cases hm : frontierMatches P db frontier with
  | error e => exact stages_error (Shared.alone_check_error rfl)
  | ok agrees =>
    refine stages_check rfl ?_
    simp only [bind, Except.bind]
    split_ifs with hdone
    · exact stages_ok (Shared.alone_pure _ _)
    · have hfree : ∀ row ∈ (boundaryRows bs).filter fun row =>
          (db.boundaries.find? row.logSize).isNone, db.boundaries.find? row.logSize = none :=
        fun row hr => Option.isNone_iff_eq_none.1 (List.mem_filter.1 hr).2
      have hdistinct : ((boundaryRows bs).filter fun row =>
          (db.boundaries.find? row.logSize).isNone).Pairwise fun a b => a.logSize ≠ b.logSize :=
        ((sorted_boundaryRows bs).imp fun h => h.ne).filter _
      cases begins <;> exact stages_backfill hsize hfree hdistinct

theorem recomputeFrom_length {frontier : List (Summary Bytes)} {leaves : List (PyStr × PyStr)}
    {r : List (PyStr × PyStr × PyStr) × List (Summary Bytes)}
    (h : recomputeFrom P frontier leaves = .ok r) : r.1.length = leaves.length := by
  induction leaves generalizing frontier r with
  | nil =>
    obtain rfl := Except.ok.inj h
    rfl
  | cons leaf leaves ih =>
    obtain ⟨_, -, h⟩ := Wire.Except.bind_eq_ok h
    obtain ⟨_, -, h⟩ := Wire.Except.bind_eq_ok h
    obtain ⟨_, -, h⟩ := Wire.Except.bind_eq_ok h
    obtain ⟨rest, hrest, h⟩ := Wire.Except.bind_eq_ok h
    obtain rfl := Except.ok.inj h
    exact congrArg (· + 1) (ih hrest)

theorem numbered_of_seqs {db : Db} (h : db.log.rows.map (·.seq) =
    (List.range db.log.rows.length).map fun i : Nat => (i : Int) + 1) : db.log.Numbered := by
  intro i row hrow
  have hi := congrArg (·[i]?) h
  have hlt := (List.getElem?_eq_some_iff.1 hrow).1
  simp only [List.getElem?_map, hrow, List.getElem?_range hlt, Option.map_some] at hi
  exact Option.some.inj hi

/-- Alone, a round is the check of the caches. -/
theorem stages_ensureRound (begins : Option PyErr) (db : Db) :
    Stages (ensureRound P begins) true db (ensureBoundaries P begins db) := by
  refine stages_select ?_
  rw [ensureBoundaries]
  by_cases hseqs : db.log.rows.map (·.seq) =
      (List.range db.log.rows.length).map fun i : Nat => (i : Int) + 1
  · rw [if_neg (not_not.2 hseqs), if_neg (not_not.2 hseqs), Db.prefixLeaves]
    have hsize : db.size = db.log.rows.length := (numbered_of_seqs hseqs).last?
    cases hr : recomputePrefix P (db.log.rows.map fun row => (row.entryHash, row.createdAt)) with
    | error e => exact stages_error (Shared.alone_check_error rfl)
    | ok recomputed =>
      have hlength := recomputeFrom_length hr
      rw [List.length_map] at hlength
      have hcaches : Stages
          (ensureCaches P begins db.log.rows.length (boundaryRows recomputed.1) recomputed.2) true db
          (reconcile P begins (boundaryRows recomputed.1) recomputed.2 db) :=
        stages_ensureCaches (by rw [boundaryRows, List.length_mapIdx, hlength]) hsize
      exact stages_check rfl hcaches
  · rw [if_pos hseqs, if_pos hseqs]
    exact stages_error (Shared.alone_lift _ _)

/-- Alone, the first round decides. -/
theorem stages_ensureBoundariesLocked (begins : Nat → Option PyErr) (rounds : Nat) (db : Db) :
    Stages (ensureBoundariesLocked P begins (rounds + 1)) () db
      (ensureBoundaries P (begins rounds) db) :=
  ⟨fun db' hdb' => ((stages_ensureRound (begins rounds) db).1 db' hdb').andThen
      (Shared.alone_pure () db'),
    fun e he => ((stages_ensureRound (begins rounds) db).2 e he).raise⟩

theorem alone_snapshotBoundaryLocked (db : Db) :
    Shared.Alone (snapshotBoundaryLocked none) db (snapshotBoundary db none) db := by
  refine Shared.alone_select ?_
  simp only [boundaryUpTo, snapshotBoundary, Option.getD_none]
  by_cases hrange : db.size < 0 ∨ db.size > db.size
  · rw [if_pos hrange, if_pos hrange]
    exact Shared.alone_lift _ _
  by_cases hzero : db.size = 0
  · rw [if_neg hrange, if_neg hrange, if_pos hzero, if_pos hzero]
    exact Shared.alone_select (Shared.alone_lift _ _)
  rw [if_neg hrange, if_neg hrange, if_neg hzero, if_neg hzero]
  refine Shared.alone_select ?_
  cases db.boundaries.find? db.size with
  | none => exact Shared.alone_lift _ _
  | some cached =>
    refine Shared.alone_select ?_
    cases db.log.find? db.size with
    | none => exact Shared.alone_lift _ _
    | some anchor =>
      simp only [Option.all_some, decide_eq_true_eq]
      by_cases hanchor : anchor.entryHash ≠ cached.head ∨ anchor.createdAt ≠ cached.createdAt
      · rw [if_pos hanchor, if_pos hanchor]
        exact Shared.alone_lift _ _
      · rw [if_neg hanchor, if_neg hanchor]
        exact Shared.alone_select (Shared.alone_lift _ _)

/-- Alone, the checks of a start are its stages. -/
theorem stages_verifyCurrent (begins : Nat → Option PyErr) (db : Db) :
    Stages (verifyCurrent P begins) () db (do
      let db ← requireMarker (some schemaVersion) markersDisagree db
      let db ← requireSound P db
      ensureBoundaries P (begins 3) db) := by
  refine stages_select ?_
  rw [requireMarker]
  by_cases hschema : db.metadataValue (py "schema_version") = some schemaVersion
  · rw [if_neg (not_not.2 hschema), if_pos hschema]
    have herrors := alone_integrityErrorsLocked (P := P) db
    simp only [bind, Except.bind, requireSound]
    cases he : integrityErrors P db with
    | error e =>
      rw [he] at herrors
      exact stages_error herrors.raise
    | ok errors =>
      rw [he] at herrors
      cases errors with
      | nil =>
        have hensure := stages_ensureBoundariesLocked (P := P) begins 3 db
        exact ⟨fun db' hdb' => herrors.andThen (hensure.1 db' hdb'),
          fun e he => herrors.andThen (hensure.2 e he)⟩
      | cons message messages =>
        exact stages_error (herrors.andThen (Shared.alone_lift _ _))
  · rw [if_pos hschema, if_neg hschema]
    exact stages_error (Shared.alone_lift _ _)

/-- Alone, a start on a file of the current schema is the start of one database. -/
theorem startCurrent_alone {env : OpenEnv} {begins : Nat → Option PyErr} {locked : Bool} {db : Db}
    (hinterval : 0 < env.verifyInterval) (hfails : ∀ k, env.fails k = none)
    (hexisted : db.existed = true) (hversion : db.userVersion = 4)
    (hbegins : begins 3 = if locked then some (.operationalError "database is locked") else none) :
    Shared.Alone (startCurrent P env begins) db (openStore P env locked db).2
      (openStore P env locked db).1 := by
  have hstages := stages_verifyCurrent (P := P) begins db
  rw [openStore, if_neg (not_le.2 hinterval), openStages, schemaStages, hexisted, hversion]
  simp only [not_true_eq_false, if_false, List.cons_append, List.nil_append, runStages, hfails]
  rw [hbegins] at hstages
  cases hmarker : requireMarker (some schemaVersion) markersDisagree db with
  | error e =>
    rw [hmarker] at hstages
    exact ((hstages.2 e rfl).rethrow startError).raise
  | ok db₁ =>
    rw [hmarker] at hstages
    obtain rfl : db₁ = db := by
      rw [requireMarker] at hmarker
      split_ifs at hmarker
      exact (Except.ok.inj hmarker).symm
    dsimp only
    cases hsound : requireSound P db₁ with
    | error e =>
      simp only [bind, Except.bind, hsound] at hstages
      exact ((hstages.2 e rfl).rethrow startError).raise
    | ok db₂ =>
      obtain rfl := (requireSound_eq_ok hsound).1
      simp only [bind, Except.bind, hsound] at hstages
      dsimp only
      cases hensure : ensureBoundaries P
          (if locked then some (.operationalError "database is locked") else none) db₂ with
      | error e => exact ((hstages.2 e hensure).rethrow startError).raise
      | ok db₃ =>
        refine ((hstages.1 db₃ hensure).rethrow startError).andThen ?_
        have hboundary := alone_snapshotBoundaryLocked db₃
        simp only [storeHead]
        cases hb : snapshotBoundary db₃ none with
        | error e =>
          rw [hb] at hboundary
          exact hboundary.raise
        | ok b =>
          rw [hb] at hboundary
          exact hboundary.andThen (Shared.alone_pure _ _)

end StoreRead

/-! ## Beside other writers -/

/-- The boundaries of a log are among those of a log that extends it. -/
theorem boundaryRows_initial {rows rows' : List LogRow} (h : rows <+: rows') :
    boundaryRows (prefixBoundaries P [] (leaves rows)) <+:
      boundaryRows (prefixBoundaries P [] (leaves rows')) := by
  obtain ⟨rest, rfl⟩ := h
  induction rest using List.reverseRecOn with
  | nil => exact (List.append_nil rows).symm ▸ List.prefix_rfl
  | append_singleton rest row ih =>
    rw [← List.append_assoc, leaves_concat, prefixBoundaries_concat, boundaryRows_concat]
    exact ih.trans (List.prefix_append _ _)

namespace Submitted

variable {db db' : Db} (h : Submitted P db db')
include h

theorem grows : Grows P db db' := by
  induction h with
  | refl => exact .refl
  | tail _ hw ih =>
    obtain ⟨-, -, hperforms⟩ := hw
    exact ih.tail (.call hperforms)

theorem length_le : db.log.rows.length ≤ db'.log.rows.length := h.log_prefix.length_le

theorem metadataValue (key : PyStr) : db'.metadataValue key = db.metadataValue key := by
  rw [Db.metadataValue, Db.metadataValue, h.metadata]

/-- A log of the same length is the same log. -/
theorem rows_eq (hlen : db'.log.rows.length ≤ db.log.rows.length) :
    db'.log.rows = db.log.rows := (h.log_prefix.eq_of_length_le hlen).symm

variable (hv : ValidStore P db)
include hv

/-- Every boundary of the log is stored. -/
theorem find?_boundary {row : BoundaryRow}
    (hrow : row ∈ boundaryRows (prefixBoundaries P [] (leaves db.log.rows))) :
    db'.boundaries.find? row.logSize = some row := by
  refine Table.mem_rows.1 ?_
  rw [(h.valid hv).boundaries]
  exact (boundaryRows_initial h.log_prefix).subset hrow

/-- A boundary that is not one of the log is of a log that has grown. -/
theorem length_lt_of_boundary (hrow : db'.boundaries.rows.any fun row =>
      row.logSize < 1 || (db.log.rows.length : Int) < row.logSize) :
    db.log.rows.length < db'.log.rows.length := by
  obtain ⟨row, hmem, hrow⟩ := List.any_eq_true.1 hrow
  obtain ⟨i, hi⟩ := List.mem_iff_getElem?.1 hmem
  have hboundaries := (h.valid hv).boundaries
  have hsize := numbered_boundaries hboundaries i row hi
  have hlt := (List.getElem?_eq_some_iff.1 hi).1
  rw [hboundaries, boundaryRows, List.length_mapIdx, prefixBoundaries_length, leaves_length] at hlt
  rw [Bool.or_eq_true, decide_eq_true_eq, decide_eq_true_eq] at hrow
  omega

/-- What a boundary is read from at the size of the log. -/
theorem find?_last {row : LogRow} (hlast : db.log.rows.getLast? = some row) :
    db'.boundaries.find? db.log.rows.length = some ⟨db.log.rows.length, row.entryHash,
        merkleRootOf P (db.log.rows.map LogRow.leaf), row.createdAt⟩ ∧
      db'.log.find? db.log.rows.length = some row ∧ (db'.log.find? 1).isSome := by
  let view (n : Nat) : Db := if n = 0 then db else db'
  have hgrows (n : Nat) : Grows P (view n) (view (n + 1)) := by
    rcases Nat.eq_zero_or_pos n with rfl | hn
    · exact h.grows
    · simp only [view, if_neg hn.ne', if_neg (Nat.succ_ne_zero n)]
      exact .refl
  have hinvariant (n : Nat) : Invariant P (view n) := by
    simp only [view]
    split_ifs
    · exact hv.toInvariant
    · exact (h.valid hv).toInvariant
  exact find?_boundary_view hgrows hinvariant (Nat.zero_le 1) hlast

/-- A frontier that differs is the one of a log that has grown. -/
theorem frontierMatches {f : List (Summary Bytes)}
    (hf : IsFrontier (merklePairHash P) (db.log.rows.map LogRow.leaf) f) :
    ∃ agrees, SkillRegistry.frontierMatches P db' f = .ok agrees ∧
      (agrees = false → db.log.rows.length < db'.log.rows.length) := by
  obtain ⟨g, hg, hg'⟩ := (h.valid hv).frontier
  refine ⟨g = f, by rw [SkillRegistry.frontierMatches, hg], fun hne => ?_⟩
  by_contra hlen
  rw [h.rows_eq (not_lt.1 hlen)] at hg'
  exact of_decide_eq_false hne (hg'.unique hf)

end Submitted

namespace StoreRead

variable {db : Db} {E : PyErr → Db → Prop}

/-- The entry of a sound submission is found, walked or live. -/
theorem wp_expectedEntryHash {walked : Table LogRow.seq} {seq : Int} {entry : LogRow}
    (hwalked : walked.rows ⊆ db.log.rows) (hentry : db.log.find? seq = some entry) :
    Shared.wp (Submitted P) (expectedEntryHash walked seq)
      (fun expected db' => expected = some entry.entryHash ∧ Submitted P db db') E db := by
  rw [expectedEntryHash]
  cases hfind : walked.find? seq with
  | some found =>
    have hfound := Option.some.inj ((Table.find?_mono hwalked hfind).symm.trans hentry)
    exact Shared.wp_pure ⟨congrArg (some ·.entryHash) hfound, .refl⟩
  | none =>
    refine Shared.wp_select fun db' hdb' => Shared.wp_pure ⟨?_, hdb'⟩
    rw [Table.find?_mono hdb'.log_prefix.subset hentry]
    rfl

theorem wp_submissionErrorsLocked {walked : Table LogRow.seq} {row : IdempotencyRow}
    (hwalked : walked.rows ⊆ db.log.rows) (hrow : SubmissionSound P db row) :
    Shared.wp (Submitted P) (submissionErrorsLocked P walked row)
      (fun found db' => found = [] ∧ Submitted P db db') E db := by
  obtain ⟨⟨entry, hentry⟩, response, hloads, hconsistent⟩ := hrow
  rw [submissionErrorsLocked, hloads]
  refine Shared.wp_bind (Shared.wp_ok (Shared.wp_bind ?_))
  refine (wp_expectedEntryHash (P := P) (E := E) hwalked hentry).mono ?_ fun _ _ he => he
  rintro _ db' ⟨rfl, hdb'⟩
  rw [submissionConsistent_eq, hentry] at hconsistent
  exact Shared.wp_pure ⟨flag_eq_nil.2 (not_not.2 hconsistent), hdb'⟩

theorem wp_importErrorsLocked {row : ImportedRow} (hrow : ImportSound P db row) :
    Shared.wp (Submitted P) (importErrorsLocked P row)
      (fun found db' => found = [] ∧ Submitted P db db') E db := by
  obtain ⟨seq, entry, record, hseq, hentry, hloads, hfingerprint⟩ := hrow
  rw [importErrorsLocked, hseq]
  refine Shared.wp_select fun db' hdb' => ?_
  rw [Table.find?_mono hdb'.log_prefix.subset hentry]
  dsimp only
  rw [hloads]
  refine Shared.wp_bind (Shared.wp_ok (Shared.wp_bind ?_))
  rw [hfingerprint]
  exact Shared.wp_ok (Shared.wp_pure ⟨flag_eq_nil.2 (not_not.2 rfl), hdb'⟩)

/-- The verification of a valid store reports nothing, whatever is submitted between its
    statements. -/
theorem wp_integrityErrorsLocked (hv : ValidStore P db) :
    Shared.wp (Submitted P) (integrityErrorsLocked P)
      (fun errors db' => errors = [] ∧ Submitted P db db') E db := by
  refine Shared.wp_select fun db₁ h₁ => Shared.wp_select fun db₂ h₂ =>
    Shared.wp_select fun db₃ h₃ => Shared.wp_select fun db₄ h₄ => ?_
  have hv₁ := h₁.valid hv
  have hv₂ := h₂.valid hv₁
  have hv₃ := h₃.valid hv₂
  have hv₄ := h₄.valid hv₃
  rw [walk_eq_nil.2 ⟨hv₄.log, hv₄.verified.timely⟩]
  refine Shared.wp_bind (Shared.wp_ok (Shared.wp_select fun db₅ h₅ => Shared.wp_bind ?_))
  -- the submissions that are read refer to entries of the log by then
  have hsubmissions : ∀ row ∈ db₅.idempotency.rows, ∀ s, Submitted P db₅ s →
      Shared.wp (Submitted P) (submissionErrorsLocked P db₄.log row)
        (fun found s' => found = [] ∧ Submitted P db₅ s') E s := by
    intro row hrow s hs
    have hsound : SubmissionSound P db₅ row := (h₅.valid hv₄).verified.submissions row hrow
    have hlater := h₅.trans hs
    have hwalked := hlater.log_prefix.subset
    refine (wp_submissionErrorsLocked hwalked (hsound.mono hs.log_prefix)).mono ?_ fun _ _ he => he
    exact fun found s' hfound => ⟨hfound.1, hs.trans hfound.2⟩
  refine (Shared.wp_collect hsubmissions .refl).mono ?_ fun _ _ he => he
  rintro _ db₆ ⟨rfl, h₆⟩
  refine Shared.wp_select fun db₇ h₇ => Shared.wp_bind ?_
  have hv₇ := h₇.valid (h₆.valid (h₅.valid hv₄))
  have himports : ∀ row ∈ db₇.imported.rows, ∀ s, Submitted P db₇ s →
      Shared.wp (Submitted P) (importErrorsLocked P row)
        (fun found s' => found = [] ∧ Submitted P db₇ s') E s := by
    intro row hrow s hs
    have hsound : ImportSound P db₇ row := hv₇.verified.imports row hrow
    refine (wp_importErrorsLocked (hsound.mono hs.log_prefix)).mono ?_ fun _ _ he => he
    exact fun found s' hfound => ⟨hfound.1, hs.trans hfound.2⟩
  refine (Shared.wp_collect himports .refl).mono ?_ fun _ _ he => he
  rintro _ db₈ ⟨rfl, h₈⟩
  refine Shared.wp_select fun db₉ h₉ => Shared.wp_pure ⟨?_, ?_⟩
  · have hforeign : foreignKeyErrors db₁ = [] := by
      have := integrityErrors_eq_nil.2 hv₁.verified
      obtain ⟨_, -, h⟩ := Wire.Except.bind_eq_ok this
      obtain ⟨_, -, h⟩ := Wire.Except.bind_eq_ok h
      obtain ⟨_, -, h⟩ := Wire.Except.bind_eq_ok h
      simp only [Except.ok.injEq, List.append_eq_nil_iff] at h
      exact h.1.1.1.1.1
    have hmetadata := metadataErrors_eq_nil.2 ⟨hv₂.verified.created, hv₂.verified.schema⟩
    rw [metadataErrors, ← h₃.metadataValue (py "schema_version")] at hmetadata
    have hhighWater : (db₉.highWater.rows.flatMap fun row =>
        flag (¬row.wellFormed) s!"upstream high-water {pyRepr row.keyId} is malformed") = [] :=
      List.flatMap_eq_nil_iff.2 fun row hr => flag_eq_nil.2
        (not_not.2 ((h₉.valid (h₈.valid hv₇)).verified.highWater row hr))
    rw [hforeign, hmetadata, hhighWater]
    rfl
  · exact h₁.trans (h₂.trans (h₃.trans (h₄.trans (h₅.trans (h₆.trans (h₇.trans (h₈.trans h₉)))))))

/-- The write transaction is given up: on a log that has not grown it is not reached. -/
theorem wp_backfill {begins : Option PyErr} {rows : List LogRow} {missing : List BoundaryRow}
    {f : List (Summary Bytes)} {db₀ : Db} (h : Submitted P db₀ db) (hv : ValidStore P db₀)
    (hgrown : db₀.log.rows.length < db.log.rows.length) (hrows : rows = db₀.log.rows) :
    Shared.wp (Submitted P) (Shared.stmt (backfill begins rows.length missing f))
      (fun done db' => Submitted P db₀ db' ∧
        (done = false → db₀.log.rows.length < db'.log.rows.length))
      (fun e db' => begins = some e ∧ Submitted P db₀ db') db := by
  subst hrows
  refine Shared.wp_stmt (fun db' done t hdb' hdone => ?_) fun db' e hdb' he => ?_
  · cases begins with
    | some e => cases hdone
    | none =>
      have hsize := (hdb'.valid (h.valid hv)).size_eq
      have hle := hdb'.length_le
      rw [backfill, if_pos (by omega)] at hdone
      obtain ⟨rfl, rfl⟩ := Prod.mk.inj (Except.ok.inj hdone)
      exact ⟨h.trans hdb', fun _ => by omega⟩
  · cases begins with
    | some e' => exact ⟨congrArg some (Except.error.inj he), h.trans hdb'⟩
    | none =>
      rw [backfill] at he
      split_ifs at he

/-- The caches of a valid store are those of the log that was read, or the log has grown. -/
theorem wp_ensureCaches {begins : Option PyErr} {f : List (Summary Bytes)} (hv : ValidStore P db)
    (hf : IsFrontier (merklePairHash P) (db.log.rows.map LogRow.leaf) f) :
    Shared.wp (Submitted P) (ensureCaches P begins db.log.rows.length
        (boundaryRows (prefixBoundaries P [] (leaves db.log.rows))) f)
      (fun done db' => Submitted P db db' ∧ (done = false → db.log.rows.length < db'.log.rows.length))
      (fun e db' => begins = some e ∧ Submitted P db db') db := by
  refine Shared.wp_select fun db₁ h₁ => ?_
  by_cases hrange : db₁.boundaries.rows.any fun row =>
      row.logSize < 1 || (db.log.rows.length : Int) < row.logSize
  · -- boundaries of entries since: the head that is read next has them too
    rw [if_pos hrange]
    have hgrown := h₁.length_lt_of_boundary hv hrange
    refine Shared.wp_select fun db₂ h₂ => ?_
    have hsize := (h₂.valid (h₁.valid hv)).size_eq
    have hle := h₂.length_le
    rw [if_pos (by omega)]
    exact Shared.wp_pure ⟨h₁.trans h₂, fun _ => by omega⟩
  have hstored : ∀ row ∈ boundaryRows (prefixBoundaries P [] (leaves db.log.rows)),
      db₁.boundaries.find? row.logSize = some row := fun row hrow => h₁.find?_boundary hv hrow
  have hagree : ¬(boundaryRows (prefixBoundaries P [] (leaves db.log.rows))).any fun row =>
      (db₁.boundaries.find? row.logSize).any (· ≠ row) := by
    rw [Bool.not_eq_true, List.any_eq_false]
    intro row hrow
    rw [hstored row hrow, Option.any_some, decide_eq_true_eq, not_not]
  have hmissing : ((boundaryRows (prefixBoundaries P [] (leaves db.log.rows))).filter fun row =>
      (db₁.boundaries.find? row.logSize).isNone) = [] := by
    refine List.filter_eq_nil_iff.2 fun row hrow => ?_
    rw [hstored row hrow]
    exact Bool.false_ne_true
  rw [if_neg hrange, if_neg hagree]
  refine Shared.wp_select fun db₂ h₂ => ?_
  obtain ⟨agrees, hm, hne⟩ := (h₁.trans h₂).frontierMatches hv hf
  rw [hm]
  refine Shared.wp_bind (Shared.wp_ok ?_)
  rw [hmissing]
  cases agrees with
  | true => exact Shared.wp_pure ⟨h₁.trans h₂, fun h => by cases h⟩
  | false => exact wp_backfill (h₁.trans h₂) hv (hne rfl) rfl

/-- A round ends, or the log has grown since it began. -/
theorem wp_ensureRound {begins : Option PyErr} (hv : ValidStore P db) :
    Shared.wp (Submitted P) (ensureRound P begins)
      (fun done db' => Submitted P db db' ∧ (done = false → db.log.rows.length < db'.log.rows.length))
      (fun e db' => begins = some e ∧ Submitted P db db') db := by
  refine Shared.wp_select fun db₁ h₁ => ?_
  have hv₁ := h₁.valid hv
  obtain ⟨bodies, hlog⟩ := hv₁.log
  obtain ⟨f, hf, hf'⟩ := hlog.recomputePrefix hv₁.bounded
  rw [if_neg (not_not.2 (numbered_seqs hv₁.numbered)), hf]
  refine Shared.wp_bind (Shared.wp_ok ((wp_ensureCaches hv₁ hf').mono ?_ ?_))
  · exact fun done db' hdone =>
      ⟨h₁.trans hdone.1, fun hd => h₁.length_le.trans_lt (hdone.2 hd)⟩
  · exact fun e db' he => ⟨he.1, h₁.trans he.2⟩

/-- The check of the caches ends, or an entry was committed in each of its rounds. -/
theorem wp_ensureBoundariesLocked {begins : Nat → Option PyErr} {rounds : Nat}
    (hv : ValidStore P db) :
    Shared.wp (Submitted P) (ensureBoundariesLocked P begins rounds)
      (fun _ db' => Submitted P db db')
      (fun e db' => Submitted P db db' ∧ ((∃ k, begins k = some e) ∨
        e = logChanged ∧ db.log.rows.length + rounds ≤ db'.log.rows.length)) db := by
  induction rounds generalizing db with
  | zero => exact Shared.wp_error ⟨.refl, .inr ⟨rfl, le_rfl⟩⟩
  | succ rounds ih =>
    refine Shared.wp_bind ((wp_ensureRound hv).mono ?_ ?_)
    · rintro done db₁ ⟨h₁, hgrown⟩
      cases done with
      | true => exact Shared.wp_pure h₁
      | false =>
        refine (ih (h₁.valid hv)).mono (fun _ db' hdb' => h₁.trans hdb') ?_
        rintro e db' ⟨hdb', he⟩
        refine ⟨h₁.trans hdb', he.imp_right fun hchanged => ⟨hchanged.1, ?_⟩⟩
        have := hgrown rfl
        have := hchanged.2
        omega
    · exact fun e db' he => ⟨he.2, .inl ⟨rounds, he.1⟩⟩

theorem wp_verifyCurrent {begins : Nat → Option PyErr} (hv : ValidStore P db) :
    Shared.wp (Submitted P) (verifyCurrent P begins) (fun _ db' => Submitted P db db')
      (fun e db' => Submitted P db db' ∧ ((∃ k, begins k = some e) ∨
        e = logChanged ∧ db.log.rows.length + 4 ≤ db'.log.rows.length)) db := by
  refine Shared.wp_select fun db₁ h₁ => ?_
  have hv₁ := h₁.valid hv
  rw [if_neg (not_not.2 hv₁.verified.schema)]
  refine Shared.wp_bind ((wp_integrityErrorsLocked hv₁).mono ?_ fun _ _ he => he)
  rintro _ db₂ ⟨rfl, h₂⟩
  refine (wp_ensureBoundariesLocked (h₂.valid hv₁)).mono
    (fun _ db' hdb' => h₁.trans (h₂.trans hdb')) ?_
  rintro e db' ⟨hdb', he⟩
  refine ⟨h₁.trans (h₂.trans hdb'), he.imp_right fun hchanged => ⟨hchanged.1, ?_⟩⟩
  have := (h₁.trans h₂).length_le
  have := hchanged.2
  omega

/-- The boundary that is read is the one of a store that the first statement saw. -/
theorem wp_snapshotBoundaryLocked (hv : ValidStore P db) :
    Shared.wp (Submitted P) (snapshotBoundaryLocked none)
      (fun b db' => ∃ seen, Submitted P db seen ∧ Submitted P seen db' ∧
        snapshotBoundary seen none = .ok b) E db := by
  refine Shared.wp_select fun seen hseen => ?_
  have hvseen := hseen.valid hv
  obtain ⟨created, hcreated, -⟩ := hvseen.verified.created
  have hboundary := hvseen.snapshotBoundary_none hcreated
  have hsize := hvseen.size_eq
  rw [Option.getD_none, boundaryUpTo, if_neg (by omega)]
  cases hlast : seen.log.rows.getLast? with
  | none =>
    have hzero : seen.size = 0 := by rw [hsize, List.getLast?_eq_none_iff.1 hlast]; rfl
    rw [if_pos hzero]
    refine Shared.wp_select fun db' hdb' => ?_
    rw [hdb'.metadataValue, hcreated]
    refine Shared.wp_ok ⟨seen, hseen, hdb', ?_⟩
    rw [hboundary, boundaryOf, hlast]
  | some row =>
    have hne : seen.size ≠ 0 := by
      intro hzero
      rw [hsize, Int.natCast_eq_zero, List.length_eq_zero_iff] at hzero
      rw [hzero] at hlast
      cases hlast
    -- the rows of the boundary and the log are there in what later statements see
    have hlater {db' : Db} (h : Submitted P seen db') := h.find?_last hvseen hlast
    rw [if_neg hne, hsize]
    refine Shared.wp_select fun db₁ h₁ => ?_
    rw [(hlater h₁).1]
    refine Shared.wp_select fun db₂ h₂ => ?_
    rw [(hlater (h₁.trans h₂)).2.1]
    simp only [Option.all_some, ne_eq, not_true_eq_false, or_self, decide_false,
      Bool.false_eq_true, if_false]
    refine Shared.wp_select fun db₃ h₃ => ?_
    obtain ⟨first, hfirst⟩ := Option.isSome_iff_exists.1 (hlater (h₁.trans (h₂.trans h₃))).2.2
    rw [hfirst]
    refine Shared.wp_ok ⟨seen, hseen, h₁.trans (h₂.trans h₃), ?_⟩
    rw [hboundary, boundaryOf, hlast]

/-- The outcomes of a start. -/
theorem wp_startCurrent {env : OpenEnv} {begins : Nat → Option PyErr} (hv : ValidStore P db) :
    Shared.wp (Submitted P) (startCurrent P env begins)
      (fun s db' => ∃ seen b, Submitted P db seen ∧ Submitted P seen db' ∧
        snapshotBoundary seen none = .ok b ∧ s = readyStore env (b.logSize, b.head))
      (fun e db' => Submitted P db db' ∧ ((∃ k f, begins k = some f ∧ e = startError f) ∨
        e = logChanged ∧ db.log.rows.length + 4 ≤ db'.log.rows.length)) db := by
  refine Shared.wp_bind (Shared.wp_rethrow ((wp_verifyCurrent hv).mono ?_ ?_))
  · intro _ db₁ h₁
    refine Shared.wp_bind ((wp_snapshotBoundaryLocked (h₁.valid hv)).mono ?_ fun _ _ he => he)
    rintro b db' ⟨seen, hseen, hdb', hb⟩
    exact Shared.wp_pure ⟨seen, b, h₁.trans hseen, hdb', hb, rfl⟩
  · rintro e db' ⟨hdb', he⟩
    refine ⟨hdb', he.imp (fun ⟨k, hk⟩ => ⟨k, e, hk, rfl⟩) ?_⟩
    rintro ⟨rfl, hgrown⟩
    exact ⟨rfl, hgrown⟩

end StoreRead

/-- A start on a valid store of the current schema, while other connections submit records between
    any two of its statements, leaves what these made of the store, with every boundary that was
    there. It succeeds, verified up to a boundary of a store that it has seen, or raises what
    BEGIN IMMEDIATE did, or refuses to run after a log that was appended to in each of four
    rounds. It never reports that the store is corrupted. -/
theorem start_raisesNoAlarm {db : Db} (hv : ValidStore P db) (env : OpenEnv)
    (begins : Nat → Option PyErr) {others : Nat → Db → Db}
    (hothers : ∀ n s, Submitted P s (others n s)) (n : Nat) :
    let o := StoreRead.startCurrent P env begins others n db
    Submitted P db o.state ∧ db.boundaries.rows <+: o.state.boundaries.rows ∧
      ((∃ seen b, Submitted P db seen ∧ Submitted P seen o.state ∧
          snapshotBoundary seen none = .ok b ∧
            o.result = .ok (readyStore env (b.logSize, b.head))) ∨
        (∃ k f, begins k = some f ∧ o.result = .error (startError f)) ∨
        o.result = .error StoreRead.logChanged ∧
          db.log.rows.length + 4 ≤ o.state.log.rows.length) := by
  intro o
  have hkept (h : Submitted P db o.state) : db.boundaries.rows <+: o.state.boundaries.rows := by
    rw [hv.boundaries, (h.valid hv).boundaries]
    exact boundaryRows_initial h.log_prefix
  cases hresult : o.result with
  | ok s =>
    obtain ⟨seen, b, hseen, hstate, hb, rfl⟩ :=
      (StoreRead.wp_startCurrent hv).of_ok hothers hresult
    exact ⟨hseen.trans hstate, hkept (hseen.trans hstate), .inl ⟨seen, b, hseen, hstate, hb, rfl⟩⟩
  | error e =>
    obtain ⟨hstate, he⟩ := (StoreRead.wp_startCurrent hv).of_error hothers hresult
    refine ⟨hstate, hkept hstate, .inr (he.imp ?_ ?_)⟩
    · rintro ⟨k, f, hk, rfl⟩
      exact ⟨k, f, hk, rfl⟩
    · rintro ⟨rfl, hgrown⟩
      exact ⟨rfl, hgrown⟩

/-! ## The background verifier beside other writers -/

variable (P) in
/-- `refresh_health_verdict`: the walk reads one snapshot on a connection of its own, and the
    publication reads the boundary statement by statement. -/
def Store.refreshLocked (utcNow : Timestamp) (clock : ℚ) (s : Store) :
    StoreRead (Store × HealthVerdict) := do
  let errors ← Shared.select (walkErrors P none)
  if h : s.integrityFailed then pure (s, s.failedVerdict)
  else if errors ≠ [] then
    let s := s.latchIntegrityFailure ("; ".intercalate errors) clock
    pure (s, s.failedVerdict)
  else do
    let boundary ← Shared.attempt (StoreRead.snapshotBoundaryLocked none)
    match boundary with
    | .error e =>
      let s := s.latchIntegrityFailure s!"snapshot boundary is unavailable: {e.message}" clock
      pure (s, s.failedVerdict)
    | .ok boundary => pure (s.pass h boundary utcNow clock,
        ⟨true, boundary.head, boundary.logSize, utcNow.text, none, "not_ready"⟩)

/-- A pass of the background verifier of an instance that has not failed, while other connections
    submit records between its walk and its publication and during the latter, ends ready: it
    verifies up to the boundary of a store that it has seen, and changes nothing. -/
theorem healthPass_raisesNoAlarm {db : Db} (hv : ValidStore P db) {s : Store}
    (hs : ¬s.integrityFailed = true) (utcNow : Timestamp) (clock : ℚ) {others : Nat → Db → Db}
    (hothers : ∀ n s, Submitted P s (others n s)) (n : Nat) :
    let o := s.refreshLocked P utcNow clock others n db
    ∃ seen b, Submitted P db seen ∧ Submitted P seen o.state ∧ snapshotBoundary seen none = .ok b ∧
      o.result = .ok (s.pass hs b utcNow clock,
        ⟨true, b.head, b.logSize, utcNow.text, none, "not_ready"⟩) := by
  intro o
  have hwp : Shared.wp (Submitted P) (s.refreshLocked P utcNow clock)
      (fun r db' => ∃ seen b, Submitted P db seen ∧ Submitted P seen db' ∧
        snapshotBoundary seen none = .ok b ∧ r = (s.pass hs b utcNow clock,
          ⟨true, b.head, b.logSize, utcNow.text, none, "not_ready"⟩))
      (fun _ _ => False) db := by
    refine Shared.wp_select fun walked hwalked => ?_
    have hvalid := hwalked.valid hv
    have herrors : walkErrors P none walked = [] := by
      simp only [walkErrors, healthErrors_eq_nil hvalid.verified hvalid.toInvariant]
    rw [dif_neg hs, herrors, if_neg (not_not.2 rfl)]
    refine Shared.wp_bind (Shared.wp_attempt
      ((StoreRead.wp_snapshotBoundaryLocked (E := fun _ _ => False) hvalid).mono ?_ fun _ _ => False.elim))
    rintro b db' ⟨seen, hseen, hdb', hb⟩
    exact Shared.wp_pure ⟨seen, b, hwalked.trans hseen, hdb', hb, rfl⟩
  cases hresult : o.result with
  | ok r =>
    obtain ⟨seen, b, hseen, hstate, hb, rfl⟩ := hwp.of_ok hothers hresult
    exact ⟨seen, b, hseen, hstate, hb, rfl⟩
  | error e => exact (hwp.of_error hothers hresult).elim

/-! ## On the sample registry -/

/-- Another connection that appends the sample record before each statement. -/
def sampleWriter (n : Nat) (db : Db) : Db :=
  if n % 2 = 0 then (sampleStore.perform .sample (.calm 0) ⟨db, none, false⟩ sampleAppend).conn.disk
  else db

theorem submitted_sampleWriter (n : Nat) (db : Db) :
    Submitted .sample db (sampleWriter n db) := by
  rw [sampleWriter]
  split_ifs
  · have h := perform_performed (P := .sample) (.calm 0) ⟨db, none, false⟩ sampleStore sampleAppend
    generalize sampleStore.perform .sample (.calm 0) ⟨db, none, false⟩ sampleAppend = o at h
    cases h with
    | refused => exact .refl
    | leftActive => exact .refl
    | done checked _ _ _ _ performs =>
      have hdated : sampleAppend.Dated := sampleTime.valid
      exact .single ⟨hdated, checked, performs⟩
  · exact .refl

theorem valid_sampleConn : ValidStore .sample sampleConn.disk := by
  obtain ⟨hverified, hinvariant, -⟩ := openStore_ready (by decide) openStore_sample
  exact ⟨hinvariant, hverified⟩

/-- A start of the sample registry, beside a connection that keeps appending. -/
theorem start_raisesNoAlarm_sample : ∃ o,
    StoreRead.startCurrent .sample sampleStart (fun _ => none) sampleWriter 0 sampleConn.disk = o ∧
      Submitted .sample sampleConn.disk o.state ∧ ((∃ s, o.result = .ok s) ∨
        o.result = .error StoreRead.logChanged ∧ 4 ≤ o.state.log.rows.length) := by
  obtain ⟨hstate, -, hresult⟩ := start_raisesNoAlarm valid_sampleConn sampleStart (fun _ => none)
    submitted_sampleWriter 0
  refine ⟨_, rfl, hstate, ?_⟩
  rcases hresult with ⟨_, b, -, -, -, hb⟩ | ⟨_, _, hbegin, -⟩ | ⟨hchanged, hgrown⟩
  · exact .inl ⟨_, hb⟩
  · cases hbegin
  · exact .inr ⟨hchanged, Nat.le_of_add_left_le hgrown⟩

/-- A pass of the background verifier of the sample registry, beside that connection. -/
theorem healthPass_raisesNoAlarm_sample :
    ∃ r, (sampleStore.refreshLocked .sample sampleTime 0 sampleWriter 0 sampleConn.disk).result =
      .ok r ∧ r.2.ready = true := by
  have hs : ¬sampleStore.integrityFailed = true := Bool.false_ne_true
  obtain ⟨_, b, -, -, -, hb⟩ := healthPass_raisesNoAlarm valid_sampleConn hs sampleTime 0
    submitted_sampleWriter 0
  exact ⟨_, hb, rfl⟩

end SkillRegistry
